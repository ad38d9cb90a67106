import SchemaScribe.Proofs.Sdl.Token

/-! # Lexemes

The lexical grammar of the language in full, for texts without comments. A default value may have
lexemes that are printed nowhere else: any number, any string, a spread. What is read of it does not
change when a comma, a parenthesis or a line feed comes behind it.
-/
namespace SchemaScribe.Sdl

/-- A number and a string are kept as they are written, a string without its quotes. A block string
is kept as its lines stand in the text. -/
inductive Lexeme where
  | mark (c : Char)
  | spread
  | name (word : String)
  | number (digits : List Char)
  | string (inside : List Char)
  | block (raw : List Char)
deriving DecidableEq, Repr

/-! ## Reading by single characters -/

/-- What happens on a character: it belongs to the lexeme, it closes it, it is left to what follows,
or there is no such lexeme. -/
inductive Move (σ : Type) where
  | go (next : σ)
  | close
  | leave
  | fail

section
variable {σ : Type} (move : σ → Char → Move σ) (mayEnd : σ → Bool)

/-- The characters that belong to a lexeme, and what follows it. -/
def scanBy : σ → List Char → Option (List Char × List Char)
  | place, [] => if mayEnd place then some ([], []) else none
  | place, c :: rest =>
    match move place c with
    | .go next => withText [c] (scanBy next rest)
    | .close => some ([], rest)
    | .leave => some ([], c :: rest)
    | .fail => none

variable {move mayEnd} {place : σ} {text taken more : List Char}

theorem length_le_of_scanBy (h : scanBy move mayEnd place text = some (taken, more)) :
    more.length ≤ text.length := by
  induction text generalizing place taken with
  | nil =>
    rw [scanBy] at h
    split at h
    · obtain ⟨-, rfl⟩ := Prod.mk.inj (Option.some.inj h)
      exact Nat.le_refl _
    · exact absurd h (by simp)
  | cons c rest ih =>
    rw [scanBy] at h
    split at h
    · obtain ⟨tail, htail, -⟩ := withText_eq_some h
      exact Nat.le_succ_of_le (ih htail)
    · obtain ⟨-, rfl⟩ := Prod.mk.inj (Option.some.inj h)
      exact Nat.le_succ _
    · obtain ⟨-, rfl⟩ := Prod.mk.inj (Option.some.inj h)
      exact Nat.le_refl _
    · exact absurd h (by simp)

/-- A lexeme that may end with its text also ends there before what it leaves. -/
theorem scanBy_append (h : scanBy move mayEnd place text = some (taken, more)) {r : List Char}
    (hr : ∀ p, mayEnd p = true → ∃ c rest, r = c :: rest ∧ move p c = .leave) :
    scanBy move mayEnd place (text ++ r) = some (taken, more ++ r) := by
  induction text generalizing place taken with
  | nil =>
    rw [scanBy] at h
    split at h
    · next hend =>
      obtain ⟨rfl, rfl⟩ := Prod.mk.inj (Option.some.inj h)
      obtain ⟨c, rest, rfl, hleave⟩ := hr place hend
      simp [scanBy, hleave]
    · exact absurd h (by simp)
  | cons c rest ih =>
    rw [scanBy] at h
    rw [List.cons_append, scanBy]
    split at h
    · obtain ⟨tail, htail, rfl⟩ := withText_eq_some h
      rw [ih htail, withText_some]
    · obtain ⟨rfl, rfl⟩ := Prod.mk.inj (Option.some.inj h)
      rfl
    · obtain ⟨rfl, rfl⟩ := Prod.mk.inj (Option.some.inj h)
      rfl
    · exact absurd h (by simp)

end

/-! ## Strings -/

def isHexDigit (c : Char) : Bool := (Text.hexValue? c).isSome

/-- Where a reader of a string is: between characters, behind a backslash, behind the letter of a
numbered escape, among its four digits with so many to come after the next, or between its braces. -/
inductive StringPlace where
  | inside
  | escape
  | numbered
  | digits (left : Nat)
  | braced (begun : Bool)

def StringPlace.move : StringPlace → Char → Move StringPlace
  | .inside, c =>
    if c = '"' then .close
    else if c = '\\' then .go .escape
    else if c = '\n' ∨ c = '\r' then .fail
    else .go .inside
  | .escape, c =>
    if c = 'u' then .go .numbered else if (simpleEscape? c).isSome then .go .inside else .fail
  | .numbered, c =>
    if c = '\x7b' then .go (.braced false) else if isHexDigit c then .go (.digits 2) else .fail
  | .digits 0, c => if isHexDigit c then .go .inside else .fail
  | .digits (left + 1), c => if isHexDigit c then .go (.digits left) else .fail
  | .braced begun, c =>
    if isHexDigit c then .go (.braced true)
    else if begun && c == '\x7d' then .go .inside
    else .fail

/-- The inside of a string and what follows it, from behind its first quote. -/
def scanInside : List Char → Option (List Char × List Char) :=
  scanBy StringPlace.move (fun _ => false) .inside

/-! ## Numbers -/

/-- Where a reader of a number is: behind the sign, behind a first zero, in the whole part, behind
the point, in the fraction, behind the letter of the exponent, behind its sign, or in its digits. -/
inductive NumberPlace where
  | sign
  | zero
  | whole
  | point
  | fraction
  | exponent
  | exponentSign
  | power

namespace NumberPlace

/-- A number ends before any character that could not be one more of its own. -/
def stop (c : Char) : Move NumberPlace :=
  if c.isDigit || c == '.' || isNameStart c then .fail else .leave

def behindWhole (c : Char) : Move NumberPlace :=
  if c = '.' then .go .point else if c = 'e' ∨ c = 'E' then .go .exponent else stop c

def move : NumberPlace → Char → Move NumberPlace
  | .sign, c => if c = '0' then .go .zero else if c.isDigit then .go .whole else .fail
  | .zero, c => behindWhole c
  | .whole, c => if c.isDigit then .go .whole else behindWhole c
  | .point, c => if c.isDigit then .go .fraction else .fail
  | .fraction, c =>
    if c.isDigit then .go .fraction else if c = 'e' ∨ c = 'E' then .go .exponent else stop c
  | .exponent, c =>
    if c = '+' ∨ c = '-' then .go .exponentSign else if c.isDigit then .go .power else .fail
  | .exponentSign, c => if c.isDigit then .go .power else .fail
  | .power, c => if c.isDigit then .go .power else stop c

def mayEnd : NumberPlace → Bool
  | .zero | .whole | .fraction | .power => true
  | .sign | .point | .exponent | .exponentSign => false

/-- The place behind the first character of a number. -/
def behind (c : Char) : NumberPlace := if c = '-' then .sign else if c = '0' then .zero else .whole

theorem move_of_ends {p : NumberPlace} (hp : p.mayEnd = true) {c : Char}
    (hc : c = ',' ∨ c = ')' ∨ c = '\n') : p.move c = .leave := by
  rcases hc with rfl | rfl | rfl <;> cases p <;> first | rfl | exact absurd hp (by decide)

end NumberPlace

/-! ## Single lexemes -/

/-- The lexeme at the start of a text, from behind its first quote. -/
def quoted? : List Char → Option (Lexeme × List Char)
  | '"' :: '"' :: rest => (scanBlock rest).map fun (raw, more) => (.block raw, more)
  | rest => (scanInside rest).map fun (inside, more) => (.string inside, more)

/-- The lexeme at the start of a text, from behind its first point. -/
def spread? : List Char → Option (Lexeme × List Char)
  | '.' :: '.' :: rest => some (.spread, rest)
  | _ => none

/-- What can start with a character. -/
inductive Start where
  | word
  | number
  | mark
  | quote
  | point
  | nothing
deriving DecidableEq

def Start.of (c : Char) : Start :=
  if isNameStart c then .word
  else if c.isDigit || c == '-' then .number
  else if isMark c then .mark
  else if c = '"' then .quote
  else if c = '.' then .point
  else .nothing

/-- The lexeme at the start of a text, and what follows it. -/
def lexeme? : List Char → Option (Lexeme × List Char)
  | [] => none
  | c :: rest =>
    match Start.of c with
    | .word =>
      some (.name (String.ofList (c :: rest.takeWhile isNameChar)), rest.dropWhile isNameChar)
    | .number =>
      (scanBy NumberPlace.move NumberPlace.mayEnd (.behind c) rest).map fun (digits, more) =>
        (.number (c :: digits), more)
    | .mark => some (.mark c, rest)
    | .quote => quoted? rest
    | .point => spread? rest
    | .nothing => none

theorem lexeme?_name {c : Char} (hc : isNameStart c = true) (rest : List Char) :
    lexeme? (c :: rest) =
      some (.name (String.ofList (c :: rest.takeWhile isNameChar)), rest.dropWhile isNameChar) := by
  have hstart : Start.of c = .word := by rw [Start.of, if_pos hc]
  rw [lexeme?, hstart]

theorem lexeme?_mark {c : Char} (hc : isMark c = true) (rest : List Char) :
    lexeme? (c :: rest) = some (.mark c, rest) := by
  have hstart : Start.of c = .mark := by
    simp only [isMark, List.contains_iff_mem, List.mem_cons, List.not_mem_nil, or_false] at hc
    rcases hc with rfl | rfl | rfl | rfl | rfl | rfl | rfl | rfl | rfl | rfl | rfl | rfl | rfl <;>
      decide
  rw [lexeme?, hstart]

theorem lexeme?_quote (rest : List Char) : lexeme? ('"' :: rest) = quoted? rest := rfl

theorem quoted?_string {rest : List Char} (h : ∀ more, rest ≠ '"' :: '"' :: more) :
    quoted? rest = (scanInside rest).map fun (inside, more) => (.string inside, more) := by
  rw [quoted?]
  exact h

section
variable {text rest more : List Char} {t : Lexeme}

theorem length_le_of_quoted (h : quoted? rest = some (t, more)) : more.length ≤ rest.length := by
  unfold quoted? at h
  split at h
  · obtain ⟨⟨raw, tail⟩, hscan, heq⟩ := Option.map_eq_some_iff.mp h
    obtain ⟨-, rfl⟩ := Prod.mk.inj heq
    have hlt := length_lt_of_scanBlock hscan
    simp only [List.length_cons]
    omega
  · obtain ⟨⟨inside, tail⟩, hscan, heq⟩ := Option.map_eq_some_iff.mp h
    obtain ⟨-, rfl⟩ := Prod.mk.inj heq
    exact length_le_of_scanBy hscan

theorem length_le_of_spread (h : spread? rest = some (t, more)) : more.length ≤ rest.length := by
  unfold spread? at h
  split at h
  · obtain ⟨-, rfl⟩ := Prod.mk.inj (Option.some.inj h)
    simp only [List.length_cons]
    omega
  · exact absurd h (by simp)

theorem length_lt_of_lexeme (h : lexeme? text = some (t, more)) : more.length < text.length := by
  cases text with
  | nil => exact absurd h (by simp [lexeme?])
  | cons c rest =>
    suffices hle : more.length ≤ rest.length from Nat.lt_succ_of_le hle
    rw [lexeme?] at h
    cases hstart : Start.of c <;> simp only [hstart] at h
    case word =>
      obtain ⟨-, rfl⟩ := Prod.mk.inj (Option.some.inj h)
      exact (List.dropWhile_suffix _).length_le
    case number =>
      obtain ⟨⟨digits, tail⟩, hscan, heq⟩ := Option.map_eq_some_iff.mp h
      obtain ⟨-, rfl⟩ := Prod.mk.inj heq
      exact length_le_of_scanBy hscan
    case mark =>
      obtain ⟨-, rfl⟩ := Prod.mk.inj (Option.some.inj h)
      exact Nat.le_refl _
    case quote => exact length_le_of_quoted h
    case point => exact length_le_of_spread h
    case nothing => exact absurd h (by simp)

/-- No lexeme starts with what stands between lexemes. -/
theorem lexeme?_ignored {c : Char} (hc : isIgnored c = true) (rest : List Char) :
    lexeme? (c :: rest) = none := by
  simp only [isIgnored, List.contains_iff_mem, List.mem_cons, List.not_mem_nil, or_false] at hc
  rcases hc with rfl | rfl | rfl | rfl | rfl | rfl <;> rfl

theorem quoted?_append (h : quoted? rest = some (t, more)) {r : List Char} (hr : ValueEnds r) :
    quoted? (rest ++ r) = some (t, more ++ r) := by
  have hquote : ∀ x, r ≠ '"' :: x := by
    rintro x rfl
    exact not_begins_cons (by decide) x hr
  by_cases hblock : ∃ inner, rest = '"' :: '"' :: inner
  · obtain ⟨inner, rfl⟩ := hblock
    obtain ⟨⟨raw, tail⟩, hscan, heq⟩ := Option.map_eq_some_iff.mp h
    obtain ⟨rfl, rfl⟩ := Prod.mk.inj heq
    simp only [List.cons_append, quoted?, scanBlock_append hscan r, Option.map_some]
  · have hstring : ∀ x, rest ≠ '"' :: '"' :: x := fun x hx => hblock ⟨x, hx⟩
    rw [quoted?_string hstring] at h
    obtain ⟨⟨inside, tail⟩, hscan, heq⟩ := Option.map_eq_some_iff.mp h
    obtain ⟨rfl, rfl⟩ := Prod.mk.inj heq
    have happend : scanInside (rest ++ r) = some (inside, tail ++ r) :=
      scanBy_append hscan fun p hp => Bool.noConfusion hp
    rw [quoted?_string, happend, Option.map_some]
    -- The two characters behind the first quote stand in the text or in what follows it.
    intro x hx
    match rest with
    | [] => exact absurd hscan (by simp [scanInside, scanBy])
    | [a] => exact hquote x (List.cons.inj hx).2
    | a :: b :: rest =>
      obtain ⟨ha, hx⟩ := List.cons.inj hx
      exact hstring rest (by rw [ha, (List.cons.inj hx).1])

theorem spread?_append (h : spread? rest = some (t, more)) (r : List Char) :
    spread? (rest ++ r) = some (t, more ++ r) := by
  unfold spread? at h
  split at h
  · obtain ⟨rfl, rfl⟩ := Prod.mk.inj (Option.some.inj h)
    rfl
  · exact absurd h (by simp)

/-- A lexeme ends where it ended when a comma, a parenthesis or a line feed follows its text. -/
theorem lexeme?_append (h : lexeme? text = some (t, more)) {r : List Char} (hr : ValueEnds r) :
    lexeme? (text ++ r) = some (t, more ++ r) := by
  cases text with
  | nil => exact absurd h (by simp [lexeme?])
  | cons c rest =>
    rw [lexeme?] at h
    rw [List.cons_append, lexeme?]
    cases hstart : Start.of c <;> simp only [hstart] at h ⊢
    case word =>
      obtain ⟨rfl, rfl⟩ := Prod.mk.inj (Option.some.inj h)
      obtain ⟨htake, hdrop⟩ := hr.run isNameChar (by decide) rest
      rw [htake, hdrop]
    case number =>
      obtain ⟨⟨digits, tail⟩, hscan, heq⟩ := Option.map_eq_some_iff.mp h
      obtain ⟨rfl, rfl⟩ := Prod.mk.inj heq
      obtain ⟨d, after, hd, rfl⟩ := hr
      rw [scanBy_append hscan fun p hp => ⟨d, after, rfl, NumberPlace.move_of_ends hp hd⟩]
      rfl
    case mark =>
      obtain ⟨rfl, rfl⟩ := Prod.mk.inj (Option.some.inj h)
      rfl
    case quote => exact quoted?_append h hr
    case point => exact spread?_append h r
    case nothing => exact absurd h (by simp)

end

/-! ## All lexemes of a text -/

/-- The lexemes of a text, if it has nothing but lexemes and blanks, line ends and commas between
them. -/
def lexemes (text : List Char) : Option (List Lexeme) :=
  match text with
  | [] => some []
  | c :: rest =>
    if isIgnored c then lexemes rest
    else
      match _h : lexeme? (c :: rest) with
      | none => none
      | some (t, more) => (lexemes more).map (t :: ·)
termination_by text.length
decreasing_by
  · exact Nat.lt_succ_self _
  · exact length_lt_of_lexeme _h

theorem lexemes_ignored {c : Char} (hc : isIgnored c = true) (rest : List Char) :
    lexemes (c :: rest) = lexemes rest := by
  rw [lexemes, if_pos hc]

theorem lexemes_of_lexeme {text more : List Char} {t : Lexeme}
    (h : lexeme? text = some (t, more)) : lexemes text = (lexemes more).map (t :: ·) := by
  cases text with
  | nil => exact absurd h (by simp [lexeme?])
  | cons c rest =>
    have hignored : ¬ isIgnored c = true := fun hc => by
      rw [lexeme?_ignored hc] at h
      exact absurd h (by simp)
    rw [lexemes, if_neg hignored]
    split
    · next hnone => rw [h] at hnone; exact absurd hnone (by simp)
    · next t' more' hsome =>
      rw [h] at hsome
      obtain ⟨rfl, rfl⟩ := Prod.mk.inj (Option.some.inj hsome)
      rfl

/-- What is read of a text stays so when a comma, a parenthesis or a line feed follows. -/
theorem lexemes_append {text : List Char} {tokens : List Lexeme} (h : lexemes text = some tokens)
    {r : List Char} (hr : ValueEnds r) :
    lexemes (text ++ r) = (lexemes r).map (tokens ++ ·) := by
  fun_induction lexemes text generalizing tokens with
  | case1 =>
    obtain rfl := Option.some.inj h
    simp
  | case2 c rest hc ih => rw [List.cons_append, lexemes_ignored hc, ih h]
  | case3 => exact absurd h (by simp)
  | case4 c rest hc t more hlexeme ih =>
    obtain ⟨others, hothers, rfl⟩ := Option.map_eq_some_iff.mp h
    rw [lexemes_of_lexeme (lexeme?_append hlexeme hr), ih hothers, Option.map_map]
    rfl

/-! ## Reading a part of a text -/

/-- Whatever may follow, the text is read as these lexemes. -/
def Lexes (text : List Char) (Next : List Char → Prop) (tokens : List Lexeme) : Prop :=
  ∀ r, Next r → lexemes (text ++ r) = (lexemes r).map (tokens ++ ·)

/-- A text ends here, or something follows that belongs to no name. -/
def WordEnds (text : List Char) : Prop := text = [] ∨ NameEnds text

namespace Lexes
variable {text more : List Char} {Next Last : List Char → Prop} {tokens others : List Lexeme}

theorem nil : Lexes [] Next [] := fun r _ => by simp

theorem append (h : Lexes text Next tokens) (h' : Lexes more Last others)
    (hnext : ∀ r, Last r → Next (more ++ r)) : Lexes (text ++ more) Last (tokens ++ others) := by
  intro r hr
  rw [List.append_assoc, h _ (hnext r hr), h' r hr, Option.map_map]
  simp only [Function.comp_def, List.append_assoc]

/-- One lexeme at the start, with all of its text. -/
theorem lexeme {t : Lexeme} (h : ∀ r, Next r → lexeme? (text ++ r) = some (t, r)) :
    Lexes text Next [t] := fun r hr => lexemes_of_lexeme (h r hr)

theorem ignored {c : Char} (hc : isIgnored c = true) (h : Lexes text Next tokens) :
    Lexes (c :: text) Next tokens := by
  intro r hr
  rw [List.cons_append, lexemes_ignored hc, h r hr]

theorem blank {blank : List Char} (hblank : ∀ c ∈ blank, isIgnored c = true)
    (h : Lexes text Next tokens) : Lexes (blank ++ text) Next tokens := by
  induction blank with
  | nil => exact h
  | cons c blank ih =>
    obtain ⟨hc, hrest⟩ := List.forall_mem_cons.mp hblank
    exact .ignored hc (ih hrest)

theorem mark {c : Char} (hc : isMark c = true) (h : Lexes text Next tokens) :
    Lexes (c :: text) Next (.mark c :: tokens) := by
  have hone : Lexes [c] (fun _ => True) [.mark c] := .lexeme fun r _ => lexeme?_mark hc r
  exact hone.append h fun _ _ => trivial

theorem name {word : String} (hword : isName word.toList = true) (h : Lexes text Next tokens)
    (hnext : ∀ r, Next r → WordEnds (text ++ r)) :
    Lexes (word.toList ++ text) Next (.name word :: tokens) := by
  have hone : Lexes word.toList WordEnds [.name word] := by
    refine .lexeme fun r hr => ?_
    obtain ⟨c, rest, hchars, hstart, hall⟩ := isName_cases hword
    have hrest : ∀ e ∈ rest, isNameChar e = true := fun e he =>
      hall e (hchars ▸ List.mem_cons_of_mem c he)
    have hends : r.takeWhile isNameChar = [] ∧ r.dropWhile isNameChar = r := by
      rcases hr with rfl | ⟨d, tail, hd, rfl⟩
      · exact ⟨rfl, rfl⟩
      · simp [hd]
    rw [hchars, List.cons_append, lexeme?_name hstart, List.takeWhile_append_of_pos hrest,
      List.dropWhile_append_of_pos hrest, hends.1, hends.2, List.append_nil, ← hchars,
      String.ofList_toList]
  exact hone.append h hnext

/-- Nothing but the text is read. -/
theorem whole (h : Lexes text Next tokens) (hnil : Next []) : lexemes text = some tokens := by
  have hread := h [] hnil
  rw [List.append_nil, lexemes] at hread
  rw [hread, Option.map_some, List.append_nil]

end Lexes
end SchemaScribe.Sdl
