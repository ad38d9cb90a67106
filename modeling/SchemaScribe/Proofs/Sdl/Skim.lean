import SchemaScribe.Proofs.Sdl.Reading

/-! # Passing over members

Between the braces of a type the reader only counts braces. What is printed there has them only in
default values, and there they are balanced, so the reader comes out as it went in.
-/
namespace SchemaScribe

namespace Sdl

/-- Tokens in which every brace has its counterpart. -/
inductive IsNested : List Token → Prop
  | nil : IsNested []
  | plain {t tokens} : t ≠ .mark '\x7b' → t ≠ .mark '\x7d' → IsNested tokens →
    IsNested (t :: tokens)
  | braces {inner tokens} : IsNested inner → IsNested tokens →
    IsNested (.mark '\x7b' :: inner ++ .mark '\x7d' :: tokens)

/-- A text that is nothing but tokens, with its braces balanced. -/
def IsLiteral (text : List Char) : Prop := ∃ tokens, Tokenized text tokens ∧ IsNested tokens

end Sdl

/-- Any descriptions and reasons, and default values of the language. -/
def Wording.literal : Wording where
  description := fun _ => True
  defaultValue := fun v => v.isNull = true ∨ Sdl.IsLiteral v.display.toList
  reason := fun _ => True

namespace Sdl

section
variable {reading : Reading} {depth : Nat} (hin : reading.stage = .inside depth)
include hin

theorem step_inside {t : Token} (hopen : t ≠ .mark '\x7b') (hclose : t ≠ .mark '\x7d') :
    reading.step t = some reading := by
  simp [Reading.step, hin, Reading.onInside, hopen, hclose]

omit hin in
theorem run_nested {tokens : List Token} (h : IsNested tokens) (reading : Reading) {depth : Nat}
    (hin : reading.stage = .inside depth) : tokens.foldlM Reading.step reading = some reading := by
  -- What stands between braces is read one level deeper.
  induction h generalizing reading depth with
  | nil => rfl
  | plain hopen hclose _ ih =>
    rw [List.foldlM_cons, step_inside hin hopen hclose]
    exact ih reading hin
  | @braces inner tokens _ _ ihinner ihrest =>
    have hopen : reading.step (.mark '\x7b') =
        some { reading with stage := .inside (depth + 1) } := by
      simp [Reading.step, hin, Reading.onInside]
    have hclose : Reading.step { reading with stage := .inside (depth + 1) } (.mark '\x7d') =
        some reading := by
      simp [Reading.step, Reading.onInside, ← hin]
    rw [List.cons_append, List.foldlM_cons, hopen, Option.bind_eq_bind, Option.bind_some,
      List.foldlM_append, ihinner { reading with stage := .inside (depth + 1) } rfl,
      Option.bind_eq_bind, Option.bind_some, List.foldlM_cons, hclose]
    exact ihrest reading hin

theorem skims_mark {c : Char} (hc : isMark c = true) (hbrace : c ≠ '\x7b' ∧ c ≠ '\x7d')
    {text : List Char} {Next : List Char → Prop} (h : Takes reading text Next reading) :
    Takes reading (c :: text) Next reading :=
  .mark hc (step_inside hin (by simpa using hbrace.1) (by simpa using hbrace.2)) h

theorem skims_name {v : Value} (hv : IsNamed v) {text : List Char} {Next : List Char → Prop}
    (h : Takes reading text Next reading) (hnext : ∀ r, Next r → NameEnds (text ++ r)) :
    Takes reading (v.display.toList ++ text) Next reading := by
  obtain ⟨s, rfl, hs⟩ := hv
  exact .name hs (step_inside hin (by simp) (by simp)) h hnext

theorem skims_typeRef {t : TypeRef} (ht : IsNamed t.innermost) {text : List Char}
    {Next : List Char → Prop} (h : Takes reading text Next reading)
    (hnext : ∀ r, Next r → NameEnds (text ++ r)) :
    Takes reading (t.text.toList ++ text) Next reading := by
  induction t generalizing text with
  | named v => exact skims_name hin ht h hnext
  | list t ih =>
    have hclose := skims_mark hin (by decide) (by decide : ']' ≠ '\x7b' ∧ ']' ≠ '\x7d') h
    have hitem := ih ht hclose fun r _ => begins_cons (by decide) _
    have hopen := skims_mark hin (by decide) (by decide : '[' ≠ '\x7b' ∧ '[' ≠ '\x7d') hitem
    simpa [TypeRef.text] using hopen
  | nonNull t ih =>
    have hbang := skims_mark hin (by decide) (by decide : '!' ≠ '\x7b' ∧ '!' ≠ '\x7d') h
    have hitem := ih ht hbang fun r _ => begins_cons (by decide) _
    simpa [TypeRef.text] using hitem

end

/-! ## Descriptions, default values and deprecations -/

section
variable {reading next result : Reading} {text : List Char} {Next : List Char → Prop}

theorem Takes.blank {blank : List Char} (hblank : ∀ c ∈ blank, isIgnored c = true)
    (h : Takes reading text Next result) : Takes reading (blank ++ text) Next result := by
  induction blank with
  | nil => exact h
  | cons c blank ih =>
    exact .ignored (hblank c (List.mem_cons_self ..)) (ih fun d hd =>
      hblank d (List.mem_cons_of_mem c hd))

theorem indent_blank : ∀ c ∈ indent.toList, isIgnored c = true := of_mem_indent (by decide)

theorem Takes.description {indentation : String}
    (hblank : ∀ c ∈ indentation.toList, isIgnored c = true) {v : Value} (hv : v.isNull = false)
    (hstep : ∀ value, reading.step (.text value) = some next) (h : Takes next text Next result) :
    Takes reading (lineText (descriptionLines indentation v) ++ text) Next result := by
  have hscan := scanBlock_blockRest (plain_of_blank hblank) v.display.toList
  have hstart : ∀ r, True → StartsWith (tripleQuote ++ indentBreaks indentation.toList
      (blockRest v.display.toList) ++ r) (.text _) r := fun r _ => by
    simpa only [tripleQuote, List.cons_append, List.nil_append] using StartsWith.block (hscan r)
  have hblock := Takes.token hstart (hstep _)
  rw [lineText_descriptionLines indentation hv, List.cons_append, List.cons_append,
    List.append_assoc]
  exact .ignored (by decide) (.blank hblank (hblock.append h fun _ _ => trivial))

end

section
variable {reading : Reading} {depth : Nat} (hin : reading.stage = .inside depth)
variable {text : List Char} {Next : List Char → Prop} (h : Takes reading text Next reading)
include hin h

theorem skims_default {v : Value} (hv : v.isNull = true ∨ IsLiteral v.display.toList)
    (hnext : ∀ r, Next r → ValueEnds (text ++ r)) :
    Takes reading ((defaultText v).toList ++ text) Next reading := by
  unfold defaultText
  split
  · exact h
  · next hnull =>
    obtain ⟨tokens, htokens, hnested⟩ := hv.resolve_left hnull
    have hvalue : Takes reading v.display.toList ValueEnds reading :=
      ⟨tokens, fun r hr => htokens.lex_append hr, run_nested hnested reading hin⟩
    rw [String.toList_append]
    have hequals := skims_mark hin (by decide) (by decide : '=' ≠ '\x7b' ∧ '=' ≠ '\x7d')
      (.ignored (by decide : isIgnored ' ' = true) (hvalue.append h hnext))
    have hall := Takes.ignored (by decide : isIgnored ' ' = true) hequals
    simpa using hall

/-- The directive adds nothing between the braces, with any reason. -/
theorem skims_deprecation (deprecated : Bool) (reason : Value)
    (hnext : ∀ r, Next r → NameEnds (text ++ r)) :
    Takes reading ((deprecation deprecated reason).toList ++ text) Next reading := by
  have hword : ∀ {word : String} {more : List Char} {Last : List Char → Prop},
      isName word.toList = true → Takes reading more Last reading →
      (∀ r, Last r → NameEnds (more ++ r)) → Takes reading (word.toList ++ more) Last reading :=
    fun hword hmore hends => .name hword (step_inside hin (by simp) (by simp)) hmore hends
  have hdirective : ∀ {more : List Char} {Last : List Char → Prop}, Takes reading more Last reading →
      (∀ r, Last r → NameEnds (more ++ r)) → Takes reading (directive ++ more) Last reading := by
    intro more Last hmore hends
    have hname := hword (by decide : isName "deprecated".toList = true) hmore hends
    have hat := skims_mark hin (by decide) (by decide : '@' ≠ '\x7b' ∧ '@' ≠ '\x7d') hname
    exact .ignored (by decide : isIgnored ' ' = true) hat
  rw [toList_deprecation]
  split
  · exact h
  · split
    · exact hdirective h hnext
    · have hclose : Takes reading (')' :: text) Next reading :=
        skims_mark hin (by decide) (by decide) h
      have hstart : ∀ r, Begins (· ≠ '"') r → StartsWith
          ('"' :: ((reasonText reason).toList.flatMap literalChar ++ ['"']) ++ r)
          (.text (reasonText reason).toList) r := fun r hr => by
        simpa using StartsWith.literal (reasonText reason).toList hr
      have hliteral := Takes.token hstart (step_inside hin (by simp) (by simp))
      have hvalue := hliteral.append hclose fun r _ => begins_cons (by decide) (text ++ r)
      have hcolon := skims_mark hin (by decide) (by decide : ':' ≠ '\x7b' ∧ ':' ≠ '\x7d')
        (.ignored (by decide : isIgnored ' ' = true) hvalue)
      have hreason := hword (by decide : isName "reason".toList = true) hcolon fun r _ =>
        begins_cons (by decide) _
      have hopen := skims_mark hin (by decide) (by decide : '(' ≠ '\x7b' ∧ '(' ≠ '\x7d') hreason
      have hall := hdirective hopen fun r _ => begins_cons (by decide) _
      simpa only [reasonArgument, List.cons_append, List.append_assoc, List.nil_append] using hall

end

/-! ## Members -/

/-- Items in a row are passed over if each of them is, wherever the next one begins. -/
theorem takes_flatMap {α : Type} {reading : Reading} {text : List Char} {Next Last : List Char → Prop}
    (write : α → List Char) (items : List α) (h : Takes reading text Next reading)
    (hitem : ∀ a ∈ items, ∀ more, Takes reading more Next reading →
      (∀ r, Next r → Last (more ++ r)) → Takes reading (write a ++ more) Next reading)
    (hbegin : ∀ a r, Last (write a ++ r)) (hnext : ∀ r, Next r → Last (text ++ r)) :
    Takes reading (items.flatMap write ++ text) Next reading ∧
      ∀ r, Next r → Last (items.flatMap write ++ text ++ r) :=
  have hitem' : ∀ a ∈ items, ∀ (_ : List α) more, Takes reading more Next reading →
      (∀ r, Next r → Last (more ++ r)) → Takes reading (write a ++ more) Next reading :=
    fun a ha _ => hitem a ha
  holds_flatMap h hitem' hbegin hnext

section
variable {reading : Reading} {depth : Nat} (hin : reading.stage = .inside depth)
variable {text : List Char} {Next : List Char → Prop} (h : Takes reading text Next reading)
include hin h

theorem skims_inputValue {v : InputValue} (hv : v.Worded .literal)
    (hnext : ∀ r, Next r → ValueEnds (text ++ r)) :
    Takes reading ((inputValue v).toList ++ text) Next reading := by
  have hdefault := skims_default hin h hv.defaultValue hnext
  have htype := skims_typeRef hin hv.type hdefault fun r hr => by
    rw [List.append_assoc]
    exact (typeEnds_default v.defaultValue (hnext r hr)).imp fun _ hc => hc.1
  have hcolon := skims_mark hin (by decide) (by decide : ':' ≠ '\x7b' ∧ ':' ≠ '\x7d')
    (.ignored (by decide : isIgnored ' ' = true) htype)
  rw [toList_inputValue]
  exact skims_name hin hv.name hcolon fun r _ => begins_cons (by decide) _

omit h in
theorem skims_described {indentation : String}
    (hblank : ∀ c ∈ indentation.toList, isIgnored c = true) (description : Value) {line : String}
    (hline : Takes reading (line.toList ++ text) Next reading) :
    Takes reading (lineText (descriptionLines indentation description ++ [indentation ++ line]) ++
      text) Next reading := by
  have hbreak := Takes.ignored (by decide : isIgnored '\n' = true) (.blank hblank hline)
  rw [lineText_append, List.append_assoc, lineText_cons, lineText_nil, List.append_nil,
    String.toList_append, List.cons_append, List.append_assoc]
  cases hnull : description.isNull with
  | true =>
    rw [descriptionLines_of_isNull indentation hnull]
    exact hbreak
  | false =>
    exact .description hblank hnull (fun _ => step_inside hin (by simp) (by simp)) hbreak

theorem skims_argumentLine {values : List InputValue} (hvalues : ∀ v ∈ values, v.Worded .literal) :
    Takes reading (argumentLine values ++ text) Next reading := by
  have hclose := skims_mark hin (by decide) (by decide : ')' ≠ '\x7b' ∧ ')' ≠ '\x7d') h
  have hends : ∀ r, ValueEnds ((')' :: text) ++ r) := fun r => begins_cons (.inr (.inl rfl)) _
  cases values with
  | nil => exact hclose
  | cons v values =>
    have hcomma : ∀ (w : InputValue) r, ValueEnds ([',', ' '] ++ (inputValue w).toList ++ r) :=
      fun w r => begins_cons (.inl rfl) _
    have hvalue : ∀ w ∈ values, ∀ more, Takes reading more Next reading →
        (∀ r, Next r → ValueEnds (more ++ r)) →
        Takes reading ([',', ' '] ++ (inputValue w).toList ++ more) Next reading := by
      intro w hw more hmore hlast
      have hw' := skims_inputValue hin hmore (hvalues w (List.mem_cons_of_mem v hw)) hlast
      exact .ignored (by decide) (.ignored (by decide) hw')
    obtain ⟨hrest, hlast⟩ := takes_flatMap (fun w => [',', ' '] ++ (inputValue w).toList) values
      hclose hvalue hcomma fun r _ => hends r
    have hfirst := skims_inputValue hin hrest (hvalues v (List.mem_cons_self ..)) hlast
    simpa [argumentLine, joined] using hfirst

theorem skims_argumentLines {indentation : String}
    (hblank : ∀ c ∈ indentation.toList, isIgnored c = true) {values : List InputValue}
    (hvalues : ∀ v ∈ values, v.Worded .literal) :
    Takes reading (argumentLines indentation values ++ text) Next reading := by
  have hdeeper : ∀ c ∈ (indentation ++ indent).toList, isIgnored c = true :=
    of_mem_deeper (by decide) hblank
  have hclose := skims_mark hin (by decide) (by decide : ')' ≠ '\x7b' ∧ ')' ≠ '\x7d') h
  have hline := Takes.ignored (by decide : isIgnored '\n' = true) (.blank hblank hclose)
  have hvalue : ∀ v ∈ values, ∀ more, Takes reading more Next reading →
      (∀ r, Next r → LineEnds (more ++ r)) →
      Takes reading (lineText (describedInputValue (indentation ++ indent) v) ++ more) Next
        reading := by
    intro v hv more hmore hlast
    exact skims_described hin hdeeper v.description
      (skims_inputValue hin hmore (hvalues v hv) fun r hr => (hlast r hr).valueEnds)
  have hbegin : ∀ (v : InputValue) r,
      LineEnds (lineText (describedInputValue (indentation ++ indent) v) ++ r) :=
    fun v => lineEnds_lineText_concat _ _
  obtain ⟨hall, -⟩ := takes_flatMap (fun v => lineText (describedInputValue (indentation ++ indent) v))
    values hline hvalue hbegin fun r _ => ⟨'\n', _, rfl, rfl⟩
  simpa [argumentLines] using hall

theorem skims_arguments {indentation : String}
    (hblank : ∀ c ∈ indentation.toList, isIgnored c = true) {values : List InputValue}
    (hvalues : ∀ v ∈ values, v.Worded .literal) :
    Takes reading ((arguments indentation values).toList ++ text) Next reading := by
  rcases arguments_cases indentation values with ⟨-, ht⟩ | ⟨-, -, ht⟩ | ⟨-, ht⟩ <;> rw [ht]
  · exact h
  · exact skims_mark hin (by decide) (by decide) (skims_argumentLine hin h hvalues)
  · exact skims_mark hin (by decide) (by decide) (skims_argumentLines hin h hblank hvalues)

theorem skims_fieldLine {f : Field} (hf : f.Worded .literal)
    (hnext : ∀ r, Next r → LineEnds (text ++ r)) :
    Takes reading ((fieldLine f).toList ++ text) Next reading := by
  have hdeprecation := skims_deprecation hin h f.deprecated f.reason fun r hr =>
    HeaderEnds.nameEnds (.inl (hnext r hr))
  have htype := skims_typeRef hin hf.type hdeprecation fun r hr => by
    rw [List.append_assoc]
    exact nameEnds_deprecation f.deprecated f.reason (hnext r hr)
  have hcolon := skims_mark hin (by decide) (by decide : ':' ≠ '\x7b' ∧ ':' ≠ '\x7d')
    (.ignored (by decide : isIgnored ' ' = true) htype)
  have harguments := skims_arguments hin hcolon indent_blank hf.arguments
  rw [toList_fieldLine]
  refine skims_name hin hf.name harguments fun r _ => ?_
  rw [List.append_assoc]
  exact begins_arguments f.arguments _

theorem skims_enumValueLine {v : EnumValue} (hv : v.Worded .literal)
    (hnext : ∀ r, Next r → LineEnds (text ++ r)) :
    Takes reading ((enumValueLine v).toList ++ text) Next reading := by
  have hdeprecation := skims_deprecation hin h v.deprecated v.reason fun r hr =>
    HeaderEnds.nameEnds (.inl (hnext r hr))
  rw [toList_enumValueLine]
  refine skims_name hin hv.name hdeprecation fun r hr => ?_
  rw [List.append_assoc]
  exact nameEnds_deprecation v.deprecated v.reason (hnext r hr)

end

/-- What is printed between braces, passed over from behind a header. -/
theorem takes_braces {α : Type} {reading : Reading} {indentation : String} {line : α → String}
    {description : α → Value} {items : List α}
    (hopen : reading.step (.mark '\x7b') = some { reading with stage := .inside 0 })
    (hready : reading.stage.isReady = true)
    (hblank : ∀ c ∈ indentation.toList, isIgnored c = true)
    (hline : ∀ a ∈ items, ∀ (inner : Reading) (text : List Char) (Next : List Char → Prop),
      inner.stage = .inside 0 → Takes inner text Next inner → (∀ r, Next r → LineEnds (text ++ r)) →
      Takes inner ((line a).toList ++ text) Next inner) :
    ∃ stage : Stage, stage.isReady = true ∧ Takes reading
      (braces (fun a => lineText (descriptionLines indentation (description a) ++
        [indentation ++ line a])) items) LineEnds { reading with stage := stage } := by
  unfold braces
  split
  · exact ⟨reading.stage, hready, .nil⟩
  · have hitem : ∀ a ∈ items, ∀ more,
        Takes { reading with stage := .inside 0 } more LineEnds { reading with stage := .inside 0 } →
        (∀ r, LineEnds r → LineEnds (more ++ r)) →
        Takes { reading with stage := .inside 0 } (lineText (descriptionLines indentation
          (description a) ++ [indentation ++ line a]) ++ more) LineEnds
          { reading with stage := .inside 0 } := by
      intro a ha more hmore hlast
      exact skims_described rfl hblank (description a) (hline a ha _ more LineEnds rfl hmore hlast)
    have hbegin : ∀ (a : α) r, LineEnds (lineText (descriptionLines indentation (description a) ++
        [indentation ++ line a]) ++ r) :=
      fun a => lineEnds_lineText_concat _ _
    obtain ⟨hitems, -⟩ := takes_flatMap _ items .nil hitem hbegin fun r hr => hr
    rw [List.append_nil] at hitems
    have hclose : Takes { reading with stage := .inside 0 } ['\n', '\x7d'] LineEnds
        { reading with stage := .start } :=
      .ignored (by decide) (.mark (by decide) rfl .nil)
    have hall := hitems.append hclose fun r _ => ⟨'\n', _, rfl, rfl⟩
    exact ⟨.start, rfl, .ignored (by decide) (.mark (by decide) hopen hall)⟩

end Sdl
end SchemaScribe
