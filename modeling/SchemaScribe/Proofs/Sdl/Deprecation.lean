import SchemaScribe.Proofs.Sdl.Lexeme

/-! # Deprecations read back

The directive of a deprecated member tells a reader the reason that the member was given. The
literal of the reason ends with its last quote whatever the reason is, so nothing in a reason gets
out of it. No reason and the default one are told alike.
-/
namespace SchemaScribe.Sdl

/-- The reason that a directive tells. The default one is understood where there is none. -/
def effectiveReason (reason : Value) : String :=
  if reason.isNull then defaultReason else reasonText reason

/-- The reason told by a text that is one directive of this kind and nothing else. -/
def readDeprecation (text : String) : Option String :=
  match lexemes text.toList with
  | some [.mark '@', .name "deprecated"] => some defaultReason
  | some [.mark '@', .name "deprecated", .mark '(', .name "reason", .mark ':', .string inside,
      .mark ')'] =>
    match scanString (inside ++ ['"']) with
    | some (value, []) => some (String.ofList value)
    | _ => none
  | _ => none

/-- A literal on one line that is closed by its last quote, by no earlier one, and says the value. -/
structure Quotes (literal value : List Char) : Prop where
  unbroken : ∀ c ∈ literal, c ≠ '\n' ∧ c ≠ '\r'
  closed : ∃ inside, literal = '"' :: inside ∧
    (∀ rest, scanString (inside ++ rest) = some (value, rest)) ∧
    ∀ front back, inside = front ++ back → back ≠ [] → scanString front = none

/-! ## What a string is read from -/

theorem isHexDigit_of_hexChar {a b c d e : Char} (h : hexChar? [a, b, c, d] = some e) :
    isHexDigit a = true ∧ isHexDigit b = true ∧ isHexDigit c = true ∧ isHexDigit d = true := by
  unfold hexChar? hexNumber? at h
  cases ha : Text.hexValue? a <;> cases hb : Text.hexValue? b <;> cases hc : Text.hexValue? c <;>
    cases hd : Text.hexValue? d <;> simp_all [isHexDigit]

theorem ne_break_of_isHexDigit {c : Char} (h : isHexDigit c = true) : c ≠ '\n' ∧ c ≠ '\r' := by
  constructor <;> rintro rfl <;> exact absurd h (by decide)

theorem ne_break_of_simpleEscape {c value : Char} (h : simpleEscape? c = some value) :
    c ≠ '\n' ∧ c ≠ '\r' := by
  constructor <;> rintro rfl <;> exact absurd h (by simp [simpleEscape?])

/-- What is read as a string is the inside of a string lexeme on one line, and the same quote closes
both. -/
theorem exists_inside {text value more : List Char} (h : scanString text = some (value, more)) :
    ∃ inside, text = inside ++ '"' :: more ∧ (∀ c ∈ inside, c ≠ '\n' ∧ c ≠ '\r') ∧
      scanInside text = some (inside, more) := by
  fun_induction scanString text generalizing value with
  | case1 | case4 | case6 | case7 => exact absurd h (by simp)
  | case2 rest =>
    obtain ⟨-, rfl⟩ := Prod.mk.inj (Option.some.inj h)
    exact ⟨[], rfl, by simp, rfl⟩
  | case3 a b c d rest e he ih =>
    obtain ⟨tail, htail, -⟩ := withText_eq_some h
    obtain ⟨inside, hrest, hunbroken, hinside⟩ := ih htail
    obtain ⟨ha, hb, hc, hd⟩ := isHexDigit_of_hexChar he
    have hbrace : a ≠ '\x7b' := by
      rintro rfl
      exact absurd ha (by decide)
    refine ⟨'\\' :: 'u' :: a :: b :: c :: d :: inside, by rw [hrest]; rfl, ?_, ?_⟩
    · simp only [List.forall_mem_cons]
      exact ⟨by decide, by decide, ne_break_of_isHexDigit ha, ne_break_of_isHexDigit hb,
        ne_break_of_isHexDigit hc, ne_break_of_isHexDigit hd, hunbroken⟩
    · rw [scanInside] at hinside ⊢
      simp [scanBy, StringPlace.move, ha, hb, hc, hd, hbrace, hinside]
  | case5 c rest hu e he ih =>
    obtain ⟨tail, htail, -⟩ := withText_eq_some h
    obtain ⟨inside, hrest, hunbroken, hinside⟩ := ih htail
    have hc : c ≠ 'u' := by
      rintro rfl
      exact absurd he (by simp [simpleEscape?])
    refine ⟨'\\' :: c :: inside, by rw [hrest]; rfl, ?_, ?_⟩
    · simp only [List.forall_mem_cons]
      exact ⟨by decide, ne_break_of_simpleEscape he, hunbroken⟩
    · rw [scanInside] at hinside ⊢
      simp [scanBy, StringPlace.move, hc, he, hinside]
  | case8 c rest hq hu hs hc ih =>
    obtain ⟨tail, htail, -⟩ := withText_eq_some h
    obtain ⟨inside, hrest, hunbroken, hinside⟩ := ih htail
    have hquote : ¬ c = '"' := hq
    simp only [not_or] at hc
    refine ⟨c :: inside, by rw [hrest]; rfl, ?_, ?_⟩
    · exact List.forall_mem_cons.mpr ⟨⟨hc.1, hc.2.1⟩, hunbroken⟩
    · rw [scanInside] at hinside ⊢
      simp [scanBy, StringPlace.move, hc, hquote, hinside]

/-- A text that is closed at its end is not closed before. -/
theorem scanString_eq_none_of_append {front back value : List Char}
    (h : scanString (front ++ back) = some (value, [])) (hback : back ≠ []) :
    scanString front = none := by
  cases hfront : scanString front with
  | none => rfl
  | some read =>
    obtain ⟨early, more⟩ := read
    rw [scanString_append hfront back] at h
    obtain ⟨-, hmore⟩ := Prod.mk.inj (Option.some.inj h)
    exact absurd (List.append_eq_nil_iff.mp hmore).2 hback

/-! ## The literal of a reason -/

theorem scanInside_literal (text rest : List Char) :
    scanInside (text.flatMap literalChar ++ '"' :: rest) = some (text.flatMap literalChar, rest) := by
  obtain ⟨inside, htext, -, hscan⟩ := exists_inside (scanString_literal text rest)
  rw [hscan, List.append_cancel_right htext]

theorem quotes_stringLiteral (text : List Char) : Quotes (stringLiteral text) text where
  unbroken := by
    obtain ⟨inside, htext, hunbroken, -⟩ := exists_inside (scanString_literal text [])
    obtain rfl := List.append_cancel_right htext
    intro c hc
    simp only [stringLiteral, List.cons_append, List.mem_cons, List.mem_append, List.not_mem_nil,
      or_false] at hc
    rcases hc with rfl | hc | rfl
    · decide
    · exact hunbroken c hc
    · decide
  closed := by
    have hscan : ∀ rest, scanString (text.flatMap literalChar ++ ['"'] ++ rest) =
        some (text, rest) := by
      intro rest
      rw [List.append_assoc]
      exact scanString_literal text rest
    refine ⟨text.flatMap literalChar ++ ['"'], rfl, hscan, fun front back hparts hback => ?_⟩
    have hwhole := hscan []
    rw [List.append_nil, hparts] at hwhole
    exact scanString_eq_none_of_append hwhole hback

/-- A string literal is one lexeme wherever no quote follows it. -/
theorem Lexes.literal (value : List Char) {text : List Char} {Next : List Char → Prop}
    {tokens : List Lexeme} (h : Lexes text Next tokens)
    (hnext : ∀ r, Next r → Begins (· ≠ '"') (text ++ r)) :
    Lexes (stringLiteral value ++ text) Next (.string (value.flatMap literalChar) :: tokens) := by
  have hone : Lexes (stringLiteral value) (Begins (· ≠ '"'))
      [.string (value.flatMap literalChar)] := by
    refine .lexeme fun r hr => ?_
    have htext : stringLiteral value ++ r = '"' :: (value.flatMap literalChar ++ '"' :: r) := by
      simp [stringLiteral]
    rw [htext, lexeme?_quote, quoted?_string (literal_ne_block value hr), scanInside_literal]
    rfl
  exact hone.append h hnext

/-! ## The directive -/

/-- A directive is printed by its effective reason alone. -/
theorem toList_deprecated {reason : Value} (h : IsOptional (fun _ => True) reason) :
    (deprecation true reason).toList =
      if effectiveReason reason = defaultReason then directive
      else directive ++ reasonArgument (effectiveReason reason) := by
  rcases h with rfl | ⟨s, rfl, -⟩
  · rfl
  · have hreason : effectiveReason (.str s) = s := rfl
    rw [toList_deprecation, hreason]
    by_cases hs : s = defaultReason <;> simp [hs, Value.isNull]

theorem lexes_directive {text : List Char} {Next : List Char → Prop} {tokens : List Lexeme}
    (h : Lexes text Next tokens) (hnext : ∀ r, Next r → WordEnds (text ++ r)) :
    Lexes (directive ++ text) Next (.mark '@' :: .name "deprecated" :: tokens) :=
  .ignored (by decide) (.mark (by decide) (.name (by decide) h hnext))

theorem lexemes_reason (value : String) :
    lexemes (directive ++ reasonArgument value) =
      some [.mark '@', .name "deprecated", .mark '(', .name "reason", .mark ':',
        .string (value.toList.flatMap literalChar), .mark ')'] := by
  have hclose : Lexes [')'] (fun _ => True) [.mark ')'] := .mark (by decide) .nil
  have hvalue := Lexes.literal value.toList hclose fun r _ => begins_cons (by decide) _
  have hreason : Lexes ("reason".toList ++ ':' :: ' ' :: (stringLiteral value.toList ++ [')']))
      (fun _ => True) _ :=
    .name (by decide) (.mark (by decide) (.ignored (by decide) hvalue)) fun r _ =>
      .inr (begins_cons (by decide) _)
  have hall := lexes_directive (.mark (by decide : isMark '(' = true) hreason) fun r _ =>
    .inr (begins_cons (by decide) _)
  have hargument : reasonArgument value =
      '(' :: ("reason".toList ++ ':' :: ' ' :: (stringLiteral value.toList ++ [')'])) := by
    simp [reasonArgument, stringLiteral]
  rw [hargument]
  exact hall.whole trivial

theorem readDeprecation_deprecation (deprecated : Bool) {reason : Value}
    (h : IsOptional (fun _ => True) reason) :
    readDeprecation (deprecation deprecated reason) =
      if deprecated then some (effectiveReason reason) else none := by
  cases deprecated with
  | false =>
    have hempty : lexemes (deprecation false reason).toList = some [] := by
      rw [show (deprecation false reason).toList = [] from rfl, lexemes]
    simp only [readDeprecation, hempty]
    rfl
  | true =>
    rw [readDeprecation, toList_deprecated h]
    by_cases hdefault : effectiveReason reason = defaultReason
    · have hlexes : Lexes directive (· = []) [.mark '@', .name "deprecated"] :=
        lexes_directive .nil fun r hr => .inl hr
      have hdirective := hlexes.whole rfl
      simp only [hdirective, hdefault, if_true]
    · have hclosed := scanString_literal (effectiveReason reason).toList []
      simp only [if_neg hdefault, lexemes_reason, hclosed, String.ofList_toList, if_true]

theorem deprecation_eq_iff {deprecated deprecated' : Bool} {reason other : Value}
    (hreason : IsOptional (fun _ => True) reason) (hother : IsOptional (fun _ => True) other) :
    deprecation deprecated reason = deprecation deprecated' other ↔
      deprecated = deprecated' ∧
        (deprecated = true → effectiveReason reason = effectiveReason other) := by
  constructor
  · intro h
    have hread := congrArg readDeprecation h
    rw [readDeprecation_deprecation _ hreason, readDeprecation_deprecation _ hother] at hread
    cases deprecated <;> cases deprecated' <;> simp_all
  · rintro ⟨rfl, hsame⟩
    cases deprecated with
    | false => rfl
    | true =>
      refine String.toList_injective ?_
      rw [toList_deprecated hreason, toList_deprecated hother, hsame rfl]

/-- A member that is not deprecated prints no directive. That of a deprecated one tells its effective
reason: it is either without an argument, or its argument is a literal that is closed by its last
quote only and says the reason. So members print the same exactly if they agree on being deprecated
and, if they are, on the effective reason. -/
theorem deprecation_reread {reason other : Value} (hreason : IsOptional (fun _ => True) reason)
    (hother : IsOptional (fun _ => True) other) (deprecated deprecated' : Bool) :
    deprecation false reason = "" ∧
      readDeprecation (deprecation true reason) = some (effectiveReason reason) ∧
      ((deprecation true reason).toList = " @deprecated".toList ∨
        ∃ literal, (deprecation true reason).toList =
          " @deprecated(reason: ".toList ++ literal ++ [')'] ∧
          Quotes literal (effectiveReason reason).toList) ∧
      (deprecation deprecated reason = deprecation deprecated' other ↔
        deprecated = deprecated' ∧
          (deprecated = true → effectiveReason reason = effectiveReason other)) := by
  refine ⟨rfl, readDeprecation_deprecation true hreason, ?_, deprecation_eq_iff hreason hother⟩
  rw [toList_deprecated hreason]
  split
  · exact .inl rfl
  · refine .inr ⟨_, ?_, quotes_stringLiteral _⟩
    simp [directive, reasonArgument, stringLiteral]

/-- A reason that would get out of a literal in which quotes, backslashes and line feeds stood as they
are. -/
def breakoutReason : String := "\\\") @oneOf\n \u0085\"\"\""

theorem deprecation_reread_breakout :
    IsOptional (fun _ => True) (.str breakoutReason) ∧ IsOptional (fun _ => True) .null ∧
      readDeprecation (deprecation true (.str breakoutReason)) = some breakoutReason ∧
      deprecation true (.str breakoutReason) ≠ deprecation true .null := by
  have hreason : IsOptional (fun _ => True) (.str breakoutReason) := .inr ⟨_, rfl, trivial⟩
  have hnull : IsOptional (fun _ => True) .null := .inl rfl
  obtain ⟨-, hread, -, hiff⟩ := deprecation_reread hreason hnull true true
  refine ⟨hreason, hnull, hread, fun h => ?_⟩
  have hsame : breakoutReason = defaultReason := (hiff.mp h).2 rfl
  exact absurd hsame (by decide)

end SchemaScribe.Sdl
