import SchemaScribe.Proofs.Sdl.Optional

/-! # Telling members apart

Arguments, fields and enum values. The arguments of a field are printed in three layouts that
already differ in their first two characters.
-/
namespace SchemaScribe

/-- What is asked of the texts of a schema that are no names. -/
structure Wording where
  description : Value → Prop
  defaultValue : Value → Prop
  reason : Value → Prop

structure InputValue.Worded (w : Wording) (v : InputValue) : Prop where
  name : Sdl.IsNamed v.name
  type : Sdl.IsNamed v.type.innermost
  description : w.description v.description
  defaultValue : w.defaultValue v.defaultValue

structure Field.Worded (w : Wording) (f : Field) : Prop where
  name : Sdl.IsNamed f.name
  type : Sdl.IsNamed f.type.innermost
  description : w.description f.description
  arguments : ∀ v ∈ f.arguments, v.Worded w
  reason : w.reason f.reason

structure EnumValue.Worded (w : Wording) (v : EnumValue) : Prop where
  name : Sdl.IsNamed v.name
  description : w.description v.description
  reason : w.reason v.reason

/-- Texts or nothing, and default values that can be told from what follows them. -/
def Wording.plain : Wording where
  description := Sdl.IsDescription
  defaultValue := Sdl.IsDefault
  reason := Sdl.IsOptional fun _ => True

/-- A field with its reason as far as it is told. -/
def Field.settled (f : Field) : Field := { f with reason := Sdl.settledReason f.deprecated f.reason }

def EnumValue.settled (v : EnumValue) : EnumValue :=
  { v with reason := Sdl.settledReason v.deprecated v.reason }

namespace Sdl

/-! ## Input values -/

theorem toList_inputValue (v : InputValue) (r : List Char) :
    (inputValue v).toList ++ r = v.name.display.toList ++ (':' :: ' ' :: (v.type.text.toList ++
      ((defaultText v.defaultValue).toList ++ r))) := by
  simp [inputValue, defaultText]

theorem typeEnds_default (v : Value) {r : List Char} (hr : ValueEnds r) :
    TypeEnds ((defaultText v).toList ++ r) := by
  unfold defaultText
  split
  · refine Begins.imp ?_ hr
    rintro c (rfl | rfl | rfl) <;> decide
  · rw [String.toList_append]
    exact ⟨' ', _, by decide, rfl⟩

/-- Input values of which nothing but the description may differ. -/
theorem separates_inputValue :
    Separates (fun v => (inputValue v).toList) (InputValue.Worded .plain) ValueEnds
      (fun v => { v with description := .null }) := by
  intro v w r s hv hw hr hs heq
  simp only [toList_inputValue] at heq
  have hcolon : ∀ x, NameEnds (':' :: x) := fun x => begins_cons (by decide) x
  obtain ⟨hname, hafter⟩ := separates_name hv.name hw.name (hcolon _) (hcolon _) heq
  obtain ⟨htype, hdefault⟩ := separates_typeRef hv.type hw.type
    (typeEnds_default v.defaultValue hr) (typeEnds_default w.defaultValue hs)
    (List.cons.inj (List.cons.inj hafter).2).2
  obtain ⟨hvalue, hrs⟩ := separates_default hv.defaultValue hw.defaultValue hr hs hdefault
  simp only [id] at hname htype hvalue
  exact ⟨by simp only [hname, htype, hvalue], hrs⟩

theorem inputValue_begins {w : Wording} {v : InputValue} (hv : v.Worded w) (r : List Char) :
    Begins (isNameStart · = true) ((inputValue v).toList ++ r) := by
  rw [toList_inputValue]
  exact hv.name.begins _

theorem LineEnds.valueEnds {r : List Char} (h : LineEnds r) : ValueEnds r :=
  h.imp fun _ hc => .inr (.inr hc)

theorem separates_describedInputValue {indentation : String}
    (hi : ∀ c ∈ indentation.toList, c ≠ '"' ∧ c ≠ '\\') :
    Separates (fun v => lineText (describedInputValue indentation v)) (InputValue.Worded .plain) LineEnds id := by
  have h := separates_described indentation inputValue InputValue.description separates_inputValue
    hi fun v hv => inputValue_begins hv
  intro v w r s hv hw hr hs heq
  obtain ⟨hview, hrs⟩ := h ⟨hv.description, hv⟩ ⟨hw.description, hw⟩ hr.valueEnds hs.valueEnds heq
  have hvw := congrArg (fun p : Value × InputValue => { p.2 with description := p.1 }) hview
  exact ⟨hvw, hrs⟩

/-- Members in lines of their own are told apart up to the end of their list. -/
theorem separates_members {α β : Type} {indentation : String} {line : α → String}
    {description : α → Value} {Valid : α → Prop} {view : α → β} {closing : List Char}
    (h : Separates
      (fun a => lineText (descriptionLines indentation (description a) ++ [indentation ++ line a]))
      Valid LineEnds view)
    (hstart : ∀ a, Valid a → ∀ r, Begins (isNameStart · = true) ((line a).toList ++ r))
    (hclosing : ∀ x y, indentation.toList ++ x ≠ closing ++ y) :
    Separates
      (List.flatMap fun a =>
        lineText (descriptionLines indentation (description a) ++ [indentation ++ line a]))
      (fun items => ∀ a ∈ items, Valid a) (MembersEnd closing) (List.map view) := by
  refine h.flatMap (fun r hr => hr.lineEnds) (fun a r ha => ?_) (fun a r ha hend => ?_)
  · obtain ⟨rest, -, htext⟩ := described_begins indentation line description (hstart a ha) r
    rw [htext]
    exact ⟨'\n', _, rfl, rfl⟩
  · obtain ⟨rest, -, htext⟩ := described_begins indentation line description (hstart a ha) r
    obtain ⟨more, hmore⟩ := hend
    rw [htext] at hmore
    exact hclosing rest more (List.cons.inj hmore).2

/-! ## Arguments -/

theorem of_mem_indent {p : Char → Prop} (hp : p ' ') : ∀ c ∈ indent.toList, p c := by
  intro c hc
  have hblank : c = ' ' := by simpa [indent] using hc
  rwa [hblank]

theorem of_mem_deeper {p : Char → Prop} (hp : p ' ') {indentation : String}
    (h : ∀ c ∈ indentation.toList, p c) : ∀ c ∈ (indentation ++ indent).toList, p c := by
  intro c hc
  rw [String.toList_append, List.mem_append] at hc
  exact hc.elim (h c) (of_mem_indent hp c)

theorem indent_plain : ∀ c ∈ indent.toList, c ≠ '"' ∧ c ≠ '\\' :=
  of_mem_indent ⟨by decide, by decide⟩

theorem eq_null_of_isNull {v : Value} (h : v.isNull = true) : v = .null := by
  cases v <;> simp [Value.isNull] at h ⊢

/-- What is written behind the first parenthesis of arguments without descriptions. -/
def argumentLine (values : List InputValue) : List Char :=
  joined [',', ' '] (fun v => (inputValue v).toList) values ++ [')']

/-- What is written behind the first parenthesis of arguments some of which are described. -/
def argumentLines (indentation : String) (values : List InputValue) : List Char :=
  (values.flatMap fun v => lineText (describedInputValue (indentation ++ indent) v)) ++
    ('\n' :: indentation.toList ++ [')'])

theorem arguments_cases (indentation : String) (values : List InputValue) :
    (values = [] ∧ (arguments indentation values).toList = []) ∨
      (values ≠ [] ∧ (∀ v ∈ values, v.description = .null) ∧
        (arguments indentation values).toList = '(' :: argumentLine values) ∨
      (values ≠ [] ∧ (arguments indentation values).toList =
        '(' :: argumentLines indentation values) := by
  unfold arguments
  split
  · next hempty => exact .inl ⟨List.isEmpty_iff.mp hempty, rfl⟩
  · next hempty =>
    have hne : values ≠ [] := fun h => hempty (List.isEmpty_iff.mpr h)
    split
    · next hall =>
      refine .inr (.inl ⟨hne, fun v hv => eq_null_of_isNull (List.all_eq_true.mp hall v hv), ?_⟩)
      rw [String.toList_append, String.toList_append, toList_joinWith]
      rfl
    · refine .inr (.inr ⟨hne, ?_⟩)
      rw [List.cons_append, toList_joinWith_lines, lineText_append, lineText_flatMap]
      simp [argumentLines]

theorem argumentLine_begins {values : List InputValue} (hne : values ≠ [])
    (hvalues : ∀ v ∈ values, v.Worded .plain) (r : List Char) :
    Begins (isNameStart · = true) (argumentLine values ++ r) := by
  obtain ⟨v, values, rfl⟩ := List.exists_cons_of_ne_nil hne
  simp only [argumentLine, joined, List.append_assoc]
  exact inputValue_begins (hvalues v (List.mem_cons_self ..)) _

theorem lineEnds_argumentLines (indentation : String) (values : List InputValue) (r : List Char) :
    LineEnds (argumentLines indentation values ++ r) := by
  rw [argumentLines, ← lineText_flatMap, List.append_assoc]
  exact lineEnds_lineText _ ⟨'\n', _, rfl, rfl⟩

theorem separates_argumentLine :
    Separates argumentLine
      (fun values => values ≠ [] ∧ (∀ v ∈ values, v.Worded .plain) ∧ ∀ v ∈ values, v.description = .null)
      (fun _ => True) id := by
  have hseparates := separates_inputValue.joined [',', ' '] (Begins (· = ')'))
    (fun r hr => hr.imp fun c hc => .inr (.inl hc))
    (fun r => ⟨',', _, .inl rfl, rfl⟩) (fun r => not_begins_cons (by decide) _)
  have hsame : ∀ {values : List InputValue}, (∀ v ∈ values, v.description = .null) →
      values.map (fun v => { v with description := .null }) = values := by
    intro values hnull
    refine (List.map_congr_left fun v hv => ?_).trans (List.map_id values)
    rw [← hnull v hv]
    rfl
  rintro values others r s ⟨hne, hvalues, hnull⟩ ⟨hne', hothers, hnull'⟩ - - heq
  simp only [argumentLine, List.append_assoc] at heq
  obtain ⟨hmap, hrs⟩ := hseparates ⟨hne, hvalues⟩ ⟨hne', hothers⟩ ⟨')', _, rfl, rfl⟩
    ⟨')', _, rfl, rfl⟩ heq
  rw [hsame hnull, hsame hnull'] at hmap
  exact ⟨hmap, (List.cons.inj hrs).2⟩

theorem separates_argumentLines {indentation : String}
    (hi : ∀ c ∈ indentation.toList, c ≠ '"' ∧ c ≠ '\\') :
    Separates (argumentLines indentation) (fun values => ∀ v ∈ values, v.Worded .plain) (fun _ => True)
      id := by
  have hclosing : ∀ x y, (indentation ++ indent).toList ++ x ≠ (indentation.toList ++ [')']) ++ y := by
    intro x y heq
    simp [indent] at heq
  have hseparates := separates_members
    (separates_describedInputValue (of_mem_deeper ⟨by decide, by decide⟩ hi)) (fun v hv => inputValue_begins hv) hclosing
  intro values others r s hvalues hothers _ _ heq
  have hends : ∀ x, MembersEnd (indentation.toList ++ [')'])
      ('\n' :: indentation.toList ++ ([')'] ++ x)) := fun x => ⟨x, by simp⟩
  simp only [argumentLines, List.append_assoc] at heq
  obtain ⟨hmap, hrs⟩ := hseparates hvalues hothers (hends r) (hends s) heq
  rw [List.map_id, List.map_id] at hmap
  have htail := List.append_cancel_left (List.cons.inj hrs).2
  exact ⟨hmap, (List.cons.inj htail).2⟩

theorem separates_arguments (indentation : String)
    (hi : ∀ c ∈ indentation.toList, c ≠ '"' ∧ c ≠ '\\') :
    Separates (fun values => (arguments indentation values).toList)
      (fun values => ∀ v ∈ values, v.Worded .plain) (Begins (· = ':')) id := by
  have hopen : ∀ {r x : List Char}, Begins (· = ':') r → r ≠ '(' :: x := by
    rintro r x hr rfl
    exact not_begins_cons (by decide) _ hr
  have happart : ∀ {values others : List InputValue} {r s : List Char}, values ≠ [] →
      (∀ v ∈ values, v.Worded .plain) → argumentLine values ++ r ≠ argumentLines indentation others ++ s := by
    intro values others r s hne hvalues heq
    obtain ⟨c, rest, hc, htext⟩ := argumentLine_begins hne hvalues r
    obtain ⟨d, rest', hd, htext'⟩ := lineEnds_argumentLines indentation others s
    rw [htext, htext', hd] at heq
    rw [(List.cons.inj heq).1] at hc
    exact absurd hc (by decide)
  intro values others r s hvalues hothers hr hs heq
  simp only at heq
  -- Texts of different layouts differ before any argument is told.
  rcases arguments_cases indentation values with ⟨rfl, ht⟩ | ⟨hne, hnull, ht⟩ | ⟨hne, ht⟩ <;>
  rcases arguments_cases indentation others with ⟨rfl, ht'⟩ | ⟨hne', hnull', ht'⟩ | ⟨hne', ht'⟩ <;>
  simp only [ht, ht'] at heq
  · exact ⟨rfl, heq⟩
  · exact absurd heq (hopen hr)
  · exact absurd heq (hopen hr)
  · exact absurd heq.symm (hopen hs)
  · exact separates_argumentLine ⟨hne, hvalues, hnull⟩ ⟨hne', hothers, hnull'⟩ trivial trivial
      (List.cons.inj heq).2
  · exact absurd (List.cons.inj heq).2 (happart hne hvalues)
  · exact absurd heq.symm (hopen hs)
  · exact absurd (List.cons.inj heq).2.symm (happart hne' hothers)
  · exact separates_argumentLines hi hvalues hothers trivial trivial (List.cons.inj heq).2

/-! ## Fields and enum values -/

def fieldLine (f : Field) : String :=
  f.name.display ++ arguments indent f.arguments ++ ": " ++ f.type.text ++
    deprecation f.deprecated f.reason

theorem field_eq (f : Field) :
    field f = descriptionLines indent f.description ++ [indent ++ fieldLine f] := by
  simp [field, fieldLine, String.append_assoc]

def enumValueLine (v : EnumValue) : String :=
  v.name.display ++ deprecation v.deprecated v.reason

theorem enumValue_eq (v : EnumValue) :
    enumValue v = descriptionLines indent v.description ++ [indent ++ enumValueLine v] := by
  simp [enumValue, enumValueLine, String.append_assoc]

theorem toList_fieldLine (f : Field) (r : List Char) :
    (fieldLine f).toList ++ r = f.name.display.toList ++ ((arguments indent f.arguments).toList ++
      (':' :: ' ' :: (f.type.text.toList ++ ((deprecation f.deprecated f.reason).toList ++ r)))) := by
  simp [fieldLine]

theorem toList_enumValueLine (v : EnumValue) (r : List Char) :
    (enumValueLine v).toList ++ r =
      v.name.display.toList ++ ((deprecation v.deprecated v.reason).toList ++ r) := by
  simp [enumValueLine]

theorem fieldLine_begins {w : Wording} {f : Field} (hf : f.Worded w) (r : List Char) :
    Begins (isNameStart · = true) ((fieldLine f).toList ++ r) := by
  rw [toList_fieldLine]
  exact hf.name.begins _

theorem enumValueLine_begins {w : Wording} {v : EnumValue} (hv : v.Worded w) (r : List Char) :
    Begins (isNameStart · = true) ((enumValueLine v).toList ++ r) := by
  rw [toList_enumValueLine]
  exact hv.name.begins _

/-- Behind a name or a type stands the directive or a line feed. -/
theorem typeEnds_deprecation (deprecated : Bool) (reason : Value) {r : List Char}
    (hr : LineEnds r) : TypeEnds ((deprecation deprecated reason).toList ++ r) := by
  rw [toList_deprecation]
  split
  · refine hr.imp ?_
    rintro c rfl
    decide
  · split <;> exact ⟨' ', _, by decide, rfl⟩

theorem nameEnds_deprecation (deprecated : Bool) (reason : Value) {r : List Char}
    (hr : LineEnds r) : NameEnds ((deprecation deprecated reason).toList ++ r) :=
  (typeEnds_deprecation deprecated reason hr).imp fun _ hc => hc.1

theorem begins_arguments (values : List InputValue) (r : List Char) :
    NameEnds ((arguments indent values).toList ++ (':' :: r)) := by
  rcases arguments_cases indent values with ⟨-, ht⟩ | ⟨-, -, ht⟩ | ⟨-, ht⟩ <;> rw [ht]
  · exact ⟨':', _, by decide, rfl⟩
  · exact ⟨'(', _, by decide, rfl⟩
  · exact ⟨'(', _, by decide, rfl⟩

theorem separates_fieldLine :
    Separates (fun f => (fieldLine f).toList) (Field.Worded .plain) LineEnds
      (fun f => { f.settled with description := .null }) := by
  intro f g r s hf hg hr hs heq
  simp only [toList_fieldLine] at heq
  obtain ⟨hname, hafter⟩ := separates_name hf.name hg.name (begins_arguments _ _)
    (begins_arguments _ _) heq
  obtain ⟨harguments, hcolon⟩ := separates_arguments indent indent_plain hf.arguments
    hg.arguments ⟨':', _, rfl, rfl⟩ ⟨':', _, rfl, rfl⟩ hafter
  obtain ⟨htypes, hdeprecation⟩ := separates_typeRef hf.type hg.type
    (typeEnds_deprecation f.deprecated f.reason hr) (typeEnds_deprecation g.deprecated g.reason hs)
    (List.cons.inj (List.cons.inj hcolon).2).2
  obtain ⟨htold, hrs⟩ := separates_deprecation (a := (f.deprecated, f.reason))
    (b := (g.deprecated, g.reason)) hf.reason hg.reason hr hs hdeprecation
  obtain ⟨hdeprecated, hreason⟩ := Prod.mk.inj htold
  simp only [id] at hname harguments htypes hdeprecated
  refine ⟨?_, hrs⟩
  simp only [Field.settled, hname, harguments, htypes, hreason]
  rw [hdeprecated]

theorem separates_enumValueLine :
    Separates (fun v => (enumValueLine v).toList) (EnumValue.Worded .plain) LineEnds
      (fun v => { v.settled with description := .null }) := by
  intro v w r s hv hw hr hs heq
  simp only [toList_enumValueLine] at heq
  obtain ⟨hname, hdeprecation⟩ := separates_name hv.name hw.name
    (nameEnds_deprecation v.deprecated v.reason hr)
    (nameEnds_deprecation w.deprecated w.reason hs) heq
  obtain ⟨htold, hrs⟩ := separates_deprecation (a := (v.deprecated, v.reason))
    (b := (w.deprecated, w.reason)) hv.reason hw.reason hr hs hdeprecation
  obtain ⟨hdeprecated, hreason⟩ := Prod.mk.inj htold
  simp only [id] at hname hdeprecated
  refine ⟨?_, hrs⟩
  simp only [EnumValue.settled, hname, hreason]
  rw [hdeprecated]

/-! ## Lists of members -/

theorem separates_field :
    Separates (fun f => lineText (field f)) (Field.Worded .plain) LineEnds Field.settled := by
  have h := separates_described indent fieldLine Field.description separates_fieldLine indent_plain
    fun f hf => fieldLine_begins hf
  intro f g r s hf hg hr hs heq
  simp only [field_eq] at heq
  obtain ⟨hview, hrs⟩ := h ⟨hf.description, hf⟩ ⟨hg.description, hg⟩ hr hs heq
  exact ⟨congrArg (fun p : Value × Field => { p.2 with description := p.1 }) hview, hrs⟩

theorem separates_enumValue :
    Separates (fun v => lineText (enumValue v)) (EnumValue.Worded .plain) LineEnds EnumValue.settled := by
  have h := separates_described indent enumValueLine EnumValue.description separates_enumValueLine
    indent_plain fun v hv => enumValueLine_begins hv
  intro v w r s hv hw hr hs heq
  simp only [enumValue_eq] at heq
  obtain ⟨hview, hrs⟩ := h ⟨hv.description, hv⟩ ⟨hw.description, hw⟩ hr hs heq
  exact ⟨congrArg (fun p : Value × EnumValue => { p.2 with description := p.1 }) hview, hrs⟩

end Sdl
end SchemaScribe
