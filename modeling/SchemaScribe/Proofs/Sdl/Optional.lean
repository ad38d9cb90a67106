import SchemaScribe.Proofs.Sdl.Description

/-! # Telling optional parts apart

Default values and deprecations, and what is printed below a description. The text of a default
value is free as long as its brackets, braces and strings are balanced on one line and nothing
outside them can be taken for what follows it.
-/
namespace SchemaScribe.Sdl

variable {α β : Type}

/-! ## Default values -/

/-- Where a reader of a default value is: between tokens, inside a string, or behind a backslash.
The brackets and braces that still have to be closed come with it. -/
inductive Place where
  | code (closers : List Char)
  | text (closers : List Char)
  | escape (closers : List Char)

def Place.inCode (closers : List Char) (c : Char) : Option Place :=
  if c = '"' then some (.text closers)
  else if c = '[' then some (.code (']' :: closers))
  else if c = '\x7b' then some (.code ('\x7d' :: closers))
  else
    match closers with
    | [] => if c ∈ [']', '\x7d', ',', '(', ')', '@'] then none else some (.code [])
    | closer :: others =>
      if c = closer then some (.code others)
      else if c = ']' ∨ c = '\x7d' then none
      else some (.code closers)

def Place.step (place : Place) (c : Char) : Option Place :=
  if c = '\n' then none
  else
    match place with
    | .code closers => Place.inCode closers c
    | .text closers =>
      some (if c = '"' then .code closers else if c = '\\' then .escape closers else .text closers)
    | .escape closers => some (.text closers)

/-- Is the text on one line, with all its brackets, braces and strings closed? Outside of them no
comma, parenthesis or at sign may stand. -/
def IsBalanced (text : List Char) : Prop := text.foldlM Place.step (.code []) = some (.code [])

def IsDefault : Value → Prop := IsOptional IsBalanced

def ValueEnds : List Char → Prop := Begins fun c => c = ',' ∨ c = ')' ∨ c = '\n'

theorem step_of_ends {c : Char} (hc : c = ',' ∨ c = ')' ∨ c = '\n') :
    Place.step (.code []) c = none := by
  rcases hc with rfl | rfl | rfl <;> decide

/-- Behind one balanced text another one goes on only with what cannot follow it. -/
theorem eq_nil_of_balanced {text more : List Char} (h : IsBalanced text)
    (hmore : IsBalanced (text ++ more)) (hends : more = [] ∨ ValueEnds more) : more = [] := by
  rcases hends with hnil | ⟨c, rest, hc, rfl⟩
  · exact hnil
  · rw [IsBalanced, List.foldlM_append, h] at hmore
    rw [Option.bind_eq_bind, Option.bind_some, List.foldlM_cons, step_of_ends hc] at hmore
    exact absurd hmore (by simp)

theorem valueEnds_of_append {text r s : List Char} (hr : ValueEnds r) (h : r = text ++ s) :
    text = [] ∨ ValueEnds text := by
  cases text with
  | nil => exact .inl rfl
  | cons c text =>
    obtain ⟨d, rest, hd, rfl⟩ := hr
    obtain ⟨rfl, -⟩ := List.cons.inj h
    exact .inr ⟨d, text, hd, rfl⟩

theorem eq_of_balanced {a b r s : List Char} (ha : IsBalanced a) (hb : IsBalanced b)
    (hr : ValueEnds r) (hs : ValueEnds s) (h : a ++ r = b ++ s) : a = b ∧ r = s := by
  -- One of the texts goes on where the other one ends.
  rcases List.append_eq_append_iff.mp h with ⟨more, rfl, hrest⟩ | ⟨more, rfl, hrest⟩
  · obtain rfl := eq_nil_of_balanced ha hb (valueEnds_of_append hr hrest)
    exact ⟨(List.append_nil a).symm, by simpa using hrest⟩
  · obtain rfl := eq_nil_of_balanced hb ha (valueEnds_of_append hs hrest)
    exact ⟨List.append_nil b, by simpa using hrest.symm⟩

/-- A default value as it is printed behind a type. -/
def defaultText (v : Value) : String := if v.isNull then "" else " = " ++ v.display

theorem separates_default :
    Separates (fun v => (defaultText v).toList) IsDefault ValueEnds id := by
  have hnull : (defaultText .null).toList = [] := rfl
  have htext : ∀ s : String, (defaultText (.str s)).toList = ' ' :: '=' :: ' ' :: s.toList := by
    intro s
    simp [defaultText, Value.isNull]
  have hspace : ∀ {r x}, ValueEnds r → r ≠ ' ' :: x := fun hr heq =>
    not_begins_cons (by decide) _ (heq ▸ hr)
  rintro _ _ r s (rfl | ⟨a, rfl, ha⟩) (rfl | ⟨b, rfl, hb⟩) hr hs heq
  · exact ⟨rfl, heq⟩
  · simp only [hnull, htext, List.nil_append, List.cons_append] at heq
    exact absurd heq (hspace hr)
  · simp only [hnull, htext, List.nil_append, List.cons_append] at heq
    exact absurd heq.symm (hspace hs)
  · simp only [htext, List.cons_append, List.cons.injEq, true_and] at heq
    obtain ⟨hab, hrs⟩ := eq_of_balanced ha hb hr hs heq
    exact ⟨congrArg Value.str (String.toList_injective hab), hrs⟩

/-! ## Deprecations -/

/-- The reason as far as it is told: not for what is not deprecated, and not if it is the default. -/
def settledReason (deprecated : Bool) (reason : Value) : Value :=
  if !deprecated || reason.same (.str defaultReason) then .null else reason

theorem deprecation_settled (deprecated : Bool) (reason : Value) :
    deprecation deprecated (settledReason deprecated reason) = deprecation deprecated reason := by
  cases deprecated with
  | false => rfl
  | true =>
    by_cases hsame : reason.same (.str defaultReason) = true
    · simp [deprecation, settledReason, hsame, Value.isNull]
    · simp [settledReason, hsame]

def LineEnds : List Char → Prop := Begins (· = '\n')

theorem LineEnds.ne_cons {r : List Char} (hr : LineEnds r) {c : Char} (hc : c ≠ '\n')
    (more : List Char) : r ≠ c :: more := by
  rintro rfl
  exact not_begins_cons (p := (· = '\n')) hc more hr

theorem lineEnds_lineText (lines : List String) {r : List Char} (hr : LineEnds r) :
    LineEnds (lineText lines ++ r) := by
  cases lines with
  | nil => exact hr
  | cons line lines => exact ⟨'\n', _, rfl, rfl⟩

theorem lineEnds_lineText_concat (lines : List String) (line : String) (r : List Char) :
    LineEnds (lineText (lines ++ [line]) ++ r) := by
  rw [lineText_append, List.append_assoc]
  exact lineEnds_lineText lines ⟨'\n', _, rfl, rfl⟩

def directive : List Char := ' ' :: '@' :: "deprecated".toList

def reasonArgument (s : String) : List Char :=
  '(' :: ("reason".toList ++ ':' :: ' ' :: '"' :: (s.toList.flatMap literalChar ++ ['"', ')']))

theorem toList_deprecation (deprecated : Bool) (reason : Value) :
    (deprecation deprecated reason).toList =
      if !deprecated then []
      else if reason.isNull || reason.same (.str defaultReason) then directive
      else directive ++ reasonArgument (reasonText reason) := by
  unfold deprecation
  split
  · rfl
  · split
    · rfl
    · simp [stringLiteral, directive, reasonArgument]

/-- A deprecation is printed in one of three ways, by what there is to tell. -/
theorem deprecation_cases (deprecated : Bool) {reason : Value}
    (h : IsOptional (fun _ => True) reason) :
    (deprecated = false ∧ (deprecation deprecated reason).toList = []) ∨
      (deprecated = true ∧ settledReason deprecated reason = .null ∧
        (deprecation deprecated reason).toList = directive) ∨
      ∃ s, deprecated = true ∧ settledReason deprecated reason = .str s ∧
        (deprecation deprecated reason).toList = directive ++ reasonArgument s := by
  cases deprecated with
  | false => exact .inl ⟨rfl, rfl⟩
  | true =>
    refine .inr ?_
    rcases h with rfl | ⟨s, rfl, -⟩
    · exact .inl ⟨rfl, by simp [settledReason], rfl⟩
    · rw [toList_deprecation]
      by_cases hs : s = defaultReason
      · exact .inl ⟨rfl, by simp [settledReason, hs], by simp [hs]⟩
      · exact .inr ⟨s, rfl, by simp [settledReason, hs], by simp [hs, Value.isNull]⟩

theorem separates_deprecation :
    Separates (fun p : Bool × Value => (deprecation p.1 p.2).toList)
      (fun p => IsOptional (fun _ => True) p.2) LineEnds
      (fun p => (p.1, settledReason p.1 p.2)) := by
  have hdirective : ∀ {r x : List Char}, LineEnds r → r ≠ directive ++ x := fun hr =>
    hr.ne_cons (by decide) _
  have hargument : ∀ {r x : List Char} {s : String}, LineEnds r → r ≠ reasonArgument s ++ x :=
    fun hr => hr.ne_cons (by decide) _
  rintro ⟨d, reason⟩ ⟨e, other⟩ r s hreason hother hr hs heq
  simp only at heq ⊢
  rcases deprecation_cases d hreason with ⟨rfl, ht⟩ | ⟨rfl, hv, ht⟩ | ⟨a, rfl, hv, ht⟩ <;>
  rcases deprecation_cases e hother with ⟨rfl, ht'⟩ | ⟨rfl, hv', ht'⟩ | ⟨b, rfl, hv', ht'⟩ <;>
  rw [ht, ht'] at heq
  · exact ⟨rfl, heq⟩
  · exact absurd heq (hdirective hr)
  · exact absurd (by simpa using heq) (hdirective (x := reasonArgument b ++ s) hr)
  · exact absurd heq.symm (hdirective hs)
  · exact ⟨by rw [hv, hv'], List.append_cancel_left heq⟩
  · rw [List.append_assoc] at heq
    exact absurd (List.append_cancel_left heq) (hargument hr)
  · exact absurd (by simpa using heq.symm) (hdirective (x := reasonArgument a ++ r) hs)
  · rw [List.append_assoc] at heq
    exact absurd (List.append_cancel_left heq).symm (hargument hs)
  · simp only [reasonArgument, List.append_assoc, List.cons_append, List.nil_append] at heq
    have htail := (List.cons.inj (List.append_cancel_left heq)).2
    have hafter := List.append_cancel_left htail
    simp only [List.cons.injEq, true_and] at hafter
    have hscan := congrArg scanString hafter
    rw [scanString_literal, scanString_literal] at hscan
    obtain ⟨hab, hrest⟩ := Prod.mk.inj (Option.some.inj hscan)
    exact ⟨by rw [hv, hv', String.toList_injective hab], (List.cons.inj hrest).2⟩

/-! ## Described things -/

section
variable (indentation : String) (line : α → String) (description : α → Value) {Valid : α → Prop}

/-- A thing below its description begins on a new line behind the indentation. -/
theorem described_begins {a : α} (hstart : ∀ r, Begins (isNameStart · = true) ((line a).toList ++ r))
    (r : List Char) :
    ∃ rest, Begins (fun c => c = '"' ∨ isNameStart c = true) rest ∧
      lineText (descriptionLines indentation (description a) ++ [indentation ++ line a]) ++ r =
        '\n' :: indentation.toList ++ rest := by
  cases hnull : (description a).isNull with
  | true =>
    refine ⟨_, (hstart r).imp fun c hc => .inr hc, ?_⟩
    simp [descriptionLines_of_isNull indentation hnull]
  | false =>
    refine ⟨tripleQuote ++ (indentBreaks indentation.toList
      (blockRest (description a).display.toList) ++ (lineText [indentation ++ line a] ++ r)),
      ⟨'"', _, .inl rfl, rfl⟩, ?_⟩
    rw [lineText_append, lineText_descriptionLines indentation hnull]
    simp only [List.append_assoc, List.cons_append]

theorem separates_described {Next : List Char → Prop} {view : α → β}
    (h : Separates (fun a => (line a).toList) Valid Next view)
    (hi : ∀ c ∈ indentation.toList, c ≠ '"' ∧ c ≠ '\\')
    (hstart : ∀ a, Valid a → ∀ r, Begins (isNameStart · = true) ((line a).toList ++ r)) :
    Separates
      (fun a => lineText (descriptionLines indentation (description a) ++ [indentation ++ line a]))
      (fun a => IsDescription (description a) ∧ Valid a) Next
      (fun a => (description a, view a)) := by
  rintro a b r s ⟨hda, ha⟩ ⟨hdb, hb⟩ hr hs heq
  have hends : ∀ c x, Valid c →
      DescriptionEnds indentation.toList ('\n' :: indentation.toList ++ ((line c).toList ++ x)) := by
    intro c x hc
    refine ⟨_, (hstart c hc x).imp fun d hd => ?_, rfl⟩
    rintro rfl
    exact absurd hd (by decide)
  have hlines : ∀ c x, lineText (descriptionLines indentation (description c) ++
      [indentation ++ line c]) ++ x = lineText (descriptionLines indentation (description c)) ++
        ('\n' :: indentation.toList ++ ((line c).toList ++ x)) := by
    intro c x
    simp
  rw [hlines, hlines] at heq
  obtain ⟨hdescription, hline⟩ :=
    separates_description indentation hi hda hdb (hends a r ha) (hends b s hb) heq
  obtain ⟨hview, hrs⟩ := h ha hb hr hs (List.append_cancel_left hline)
  exact ⟨Prod.ext hdescription hview, hrs⟩

end

/-- The end of a list of members: a line feed, and the closing mark less indented than they are. -/
def MembersEnd (closing : List Char) (text : List Char) : Prop := ∃ rest, text = '\n' :: closing ++ rest

theorem MembersEnd.lineEnds {closing r : List Char} (h : MembersEnd closing r) : LineEnds r := by
  obtain ⟨rest, rfl⟩ := h
  exact ⟨_, _, rfl, rfl⟩

end SchemaScribe.Sdl
