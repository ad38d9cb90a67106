import Mathlib.Data.List.Basic
import SchemaScribe.Proofs.Sdl.Lexeme
import SchemaScribe.Proofs.Sdl.Skim

/-! # The layouts of arguments

Arguments stand on one line if none is described, and otherwise on lines of their own. Both layouts
have the same lexemes, but for those of the descriptions, each of which comes directly before the
name of its own argument.
-/
namespace SchemaScribe

/-- Any descriptions and reasons, and default values that can be read on their own. -/
def Wording.lexical : Wording where
  description := fun _ => True
  defaultValue := fun v => v.isNull = true ∨ ∃ tokens, Sdl.lexemes v.display.toList = some tokens
  reason := fun _ => True

/-- The same input value without a description. -/
def InputValue.undescribed (v : InputValue) : InputValue := { v with description := .null }

namespace Sdl

def typeLexemes : TypeRef → List Lexeme
  | .named name => [.name name.display]
  | .list item => .mark '[' :: typeLexemes item ++ [.mark ']']
  | .nonNull item => typeLexemes item ++ [.mark '!']

def defaultLexemes (v : Value) : List Lexeme :=
  if v.isNull then [] else .mark '=' :: (lexemes v.display.toList).getD []

/-- The lexemes of an input value without those of its description. -/
def inputValueLexemes (v : InputValue) : List Lexeme :=
  .name v.name.display :: .mark ':' :: (typeLexemes v.type ++ defaultLexemes v.defaultValue)

/-- The one lexeme of a description, if there is one. -/
def descriptionLexemes (indentation : String) (description : Value) : List Lexeme :=
  if description.isNull then []
  else [.block (indentBreaks indentation.toList (blockValue description.display.toList))]

/-- The lexemes of arguments in their parentheses, each behind those of its description. -/
def argumentLexemes (describe : InputValue → List Lexeme) (values : List InputValue) :
    List Lexeme :=
  .mark '(' :: (values.flatMap (fun v => describe v ++ inputValueLexemes v) ++ [.mark ')'])

namespace Lexes
variable {text : List Char} {Next : List Char → Prop} {tokens : List Lexeme}

/-! ## Single arguments -/

theorem named {v : Value} (hv : IsNamed v) (h : Lexes text Next tokens)
    (hnext : ∀ r, Next r → WordEnds (text ++ r)) :
    Lexes (v.display.toList ++ text) Next (.name v.display :: tokens) := by
  obtain ⟨s, rfl, hs⟩ := hv
  exact .name hs h hnext

theorem typeRef {t : TypeRef} (ht : IsNamed t.innermost) (h : Lexes text Next tokens)
    (hnext : ∀ r, Next r → WordEnds (text ++ r)) :
    Lexes (t.text.toList ++ text) Next (typeLexemes t ++ tokens) := by
  induction t generalizing text tokens with
  | named v => exact .named ht h hnext
  | list t ih =>
    have hitem := ih ht (.mark (by decide : isMark ']' = true) h) fun r _ =>
      .inr (begins_cons (by decide) _)
    have hall := Lexes.mark (by decide : isMark '[' = true) hitem
    simpa [TypeRef.text, typeLexemes] using hall
  | nonNull t ih =>
    have hitem := ih ht (.mark (by decide : isMark '!' = true) h) fun r _ =>
      .inr (begins_cons (by decide) _)
    simpa [TypeRef.text, typeLexemes] using hitem

theorem default {v : Value} (hv : Wording.lexical.defaultValue v) (h : Lexes text Next tokens)
    (hnext : ∀ r, Next r → ValueEnds (text ++ r)) :
    Lexes ((defaultText v).toList ++ text) Next (defaultLexemes v ++ tokens) := by
  rw [defaultText, defaultLexemes]
  split
  · exact h
  · next hnull =>
    obtain ⟨own, hown⟩ := hv.resolve_left hnull
    have hvalue : Lexes v.display.toList ValueEnds own := fun r hr => lexemes_append hown hr
    have hall := Lexes.ignored (by decide : isIgnored ' ' = true)
      (.mark (by decide : isMark '=' = true)
        (.ignored (by decide : isIgnored ' ' = true) (hvalue.append h hnext)))
    rw [hown, Option.getD_some]
    simpa using hall

theorem inputValue {v : InputValue} (hv : v.Worded .lexical) (h : Lexes text Next tokens)
    (hnext : ∀ r, Next r → ValueEnds (text ++ r)) :
    Lexes ((inputValue v).toList ++ text) Next (inputValueLexemes v ++ tokens) := by
  have hdefault := Lexes.default hv.defaultValue h hnext
  have htype := Lexes.typeRef hv.type hdefault fun r hr => by
    rw [List.append_assoc]
    exact .inr ((typeEnds_default v.defaultValue (hnext r hr)).imp fun _ hc => hc.1)
  have hcolon := Lexes.mark (by decide : isMark ':' = true)
    (.ignored (by decide : isIgnored ' ' = true) htype)
  have hall := Lexes.named hv.name hcolon fun r _ => .inr (begins_cons (by decide) _)
  rw [toList_inputValue, inputValueLexemes]
  simpa using hall

theorem description {indentation : String}
    (hblank : ∀ c ∈ indentation.toList, isIgnored c = true) (v : Value)
    (h : Lexes text Next tokens) :
    Lexes (lineText (descriptionLines indentation v) ++ text) Next
      (descriptionLexemes indentation v ++ tokens) := by
  rw [descriptionLexemes]
  split
  · next hnull =>
    rw [descriptionLines_of_isNull indentation hnull]
    exact h
  · next hnull =>
    have hscan := scanBlock_blockRest (plain_of_blank hblank) v.display.toList
    have hone : Lexes (tripleQuote ++ indentBreaks indentation.toList (blockRest v.display.toList))
        (fun _ => True) [.block (indentBreaks indentation.toList (blockValue v.display.toList))] := by
      refine .lexeme fun r _ => ?_
      rw [tripleQuote, List.append_assoc, List.cons_append, lexeme?_quote]
      simp only [List.cons_append, List.nil_append, quoted?, hscan r, Option.map_some]
    have hall := hone.append h fun _ _ => trivial
    rw [lineText_descriptionLines indentation (by simpa using hnull), List.cons_append,
      List.cons_append, List.append_assoc]
    exact .ignored (by decide) (.blank hblank hall)

/-! ## Arguments in a row -/

/-- Items in a row are read one after the other if each is, wherever the next one begins. -/
theorem flatMap {α : Type} {write : α → List Char} {read : α → List Lexeme}
    {Last : List Char → Prop} {items : List α} (h : Lexes text Next tokens)
    (hitem : ∀ a ∈ items, ∀ more others, Lexes more Next others →
      (∀ r, Next r → Last (more ++ r)) → Lexes (write a ++ more) Next (read a ++ others))
    (hbegin : ∀ a r, Last (write a ++ r)) (hnext : ∀ r, Next r → Last (text ++ r)) :
    Lexes (items.flatMap write ++ text) Next (items.flatMap read ++ tokens) ∧
      ∀ r, Next r → Last (items.flatMap write ++ text ++ r) := by
  have hitem' : ∀ a ∈ items, ∀ (others : List α) more,
      Lexes more Next (others.flatMap read ++ tokens) → (∀ r, Next r → Last (more ++ r)) →
      Lexes (write a ++ more) Next ((a :: others).flatMap read ++ tokens) := by
    intro a ha others more hmore hlast
    rw [List.flatMap_cons, List.append_assoc]
    exact hitem a ha more _ hmore hlast
  exact holds_flatMap h hitem' hbegin hnext

theorem close : Lexes [')'] (fun _ => True) [.mark ')'] := .mark (by decide) .nil

variable {values : List InputValue} (hvalues : ∀ v ∈ values, v.Worded .lexical)
include hvalues

theorem argumentLine (hne : values ≠ []) :
    Lexes (argumentLine values) (fun _ => True)
      (values.flatMap inputValueLexemes ++ [.mark ')']) := by
  obtain ⟨v, values, rfl⟩ := List.exists_cons_of_ne_nil hne
  obtain ⟨hv, hrest⟩ := List.forall_mem_cons.mp hvalues
  have hitem : ∀ w ∈ values, ∀ more others, Lexes more (fun _ => True) others →
      (∀ r, True → ValueEnds (more ++ r)) →
      Lexes ([',', ' '] ++ (Sdl.inputValue w).toList ++ more) (fun _ => True)
        (inputValueLexemes w ++ others) := by
    intro w hw more others hmore hlast
    exact .ignored (by decide) (.ignored (by decide) (.inputValue (hrest w hw) hmore hlast))
  obtain ⟨hothers, hends⟩ := Lexes.flatMap close hitem (fun w r => begins_cons (.inl rfl) _)
    fun r _ => begins_cons (.inr (.inl rfl)) _
  have hall := Lexes.inputValue hv hothers hends
  rw [Sdl.argumentLine, joined, List.append_assoc, List.flatMap_cons, List.append_assoc]
  exact hall

theorem argumentLines {indentation : String}
    (hblank : ∀ c ∈ indentation.toList, isIgnored c = true) :
    Lexes (argumentLines indentation values) (fun _ => True)
      (values.flatMap (fun v =>
        descriptionLexemes (indentation ++ indent) v.description ++ inputValueLexemes v) ++
        [.mark ')']) := by
  have hdeeper : ∀ c ∈ (indentation ++ indent).toList, isIgnored c = true :=
    of_mem_deeper (by decide) hblank
  have hitem : ∀ v ∈ values, ∀ more others, Lexes more (fun _ => True) others →
      (∀ r, True → LineEnds (more ++ r)) →
      Lexes (lineText (describedInputValue (indentation ++ indent) v) ++ more) (fun _ => True)
        (descriptionLexemes (indentation ++ indent) v.description ++ inputValueLexemes v ++
          others) := by
    intro v hv more others hmore hlast
    have hline := Lexes.ignored (by decide : isIgnored '\n' = true) (.blank hdeeper
      (.inputValue (hvalues v hv) hmore fun r hr => (hlast r hr).valueEnds))
    have hall := Lexes.description hdeeper v.description hline
    rw [describedInputValue, lineText_append, lineText_cons, lineText_nil]
    simpa using hall
  have hbegin : ∀ (v : InputValue) r,
      LineEnds (lineText (describedInputValue (indentation ++ indent) v) ++ r) :=
    fun v => lineEnds_lineText_concat _ _
  have hlast := Lexes.ignored (by decide : isIgnored '\n' = true) (.blank hblank close)
  exact (Lexes.flatMap hlast hitem hbegin fun r _ => ⟨'\n', _, rfl, rfl⟩).1

end Lexes

/-! ## Both layouts -/

/-- The description of an argument, if it has one, is one lexeme wherever it is printed. -/
theorem lexemes_description {indentation : String}
    (hblank : ∀ c ∈ indentation.toList, isIgnored c = true) (v : Value) :
    lexemes (Text.joinWith "\n" (descriptionLines indentation v)).toList =
      some (descriptionLexemes indentation v) := by
  have hlexes : Lexes (lineText (descriptionLines indentation v) ++ []) (fun _ => True)
    (descriptionLexemes indentation v ++ []) := .description hblank v .nil
  have hread := hlexes.whole trivial
  rw [List.append_nil, List.append_nil] at hread
  cases hlines : descriptionLines indentation v with
  | nil => rw [hlines] at hread; exact hread
  | cons line lines =>
    rw [hlines, lineText_cons, List.cons_append, lexemes_ignored (by decide)] at hread
    rw [toList_joinWith_lines]
    exact hread

theorem descriptionLexemes_null (indentation : String) :
    descriptionLexemes indentation .null = [] := rfl

theorem descriptionLexemes_of_isNull (indentation : String) {v : Value} (h : v.isNull = false) :
    descriptionLexemes indentation v =
      [.block (indentBreaks indentation.toList (blockValue v.display.toList))] := by
  rw [descriptionLexemes, if_neg (by simp [h])]

/-- In either layout the lexemes are those of the arguments with those of their descriptions. -/
theorem lexemes_arguments {indentation : String}
    (hblank : ∀ c ∈ indentation.toList, isIgnored c = true) {values : List InputValue}
    (hne : values ≠ []) (hvalues : ∀ v ∈ values, v.Worded .lexical) :
    lexemes (arguments indentation values).toList = some (argumentLexemes
      (fun v => descriptionLexemes (indentation ++ indent) v.description) values) := by
  rcases arguments_cases indentation values with ⟨hnil, -⟩ | ⟨-, hnull, ht⟩ | ⟨-, ht⟩
  · exact absurd hnil hne
  · have hplain : values.flatMap inputValueLexemes = values.flatMap fun v =>
        descriptionLexemes (indentation ++ indent) v.description ++ inputValueLexemes v :=
      List.flatMap_congr fun v hv => by rw [hnull v hv, descriptionLexemes_null, List.nil_append]
    rw [ht, argumentLexemes, ← hplain]
    exact (Lexes.mark (by decide) (Lexes.argumentLine hvalues hne)).whole trivial
  · rw [ht]
    exact (Lexes.mark (by decide) (Lexes.argumentLines hvalues hblank)).whole trivial

/-- Arguments with names of the language, default values that can be read on their own and any
descriptions have the same lexemes as the same arguments without descriptions, but for the one lexeme
of each description, which comes directly before the name of its argument. -/
theorem arguments_layouts {indentation : String}
    (hblank : ∀ c ∈ indentation.toList, isIgnored c = true) {values : List InputValue}
    (hne : values ≠ []) (hvalues : ∀ v ∈ values, v.Worded .lexical) :
    lexemes (arguments indentation values).toList = some (argumentLexemes
        (fun v => descriptionLexemes (indentation ++ indent) v.description) values) ∧
      lexemes (arguments indentation (values.map .undescribed)).toList =
        some (argumentLexemes (fun _ => []) values) ∧
      ∀ v ∈ values,
        (v.description.isNull = false → ∃ raw,
          descriptionLexemes (indentation ++ indent) v.description = [.block raw] ∧
          lexemes (Text.joinWith "\n"
            (descriptionLines (indentation ++ indent) v.description)).toList =
              some [.block raw]) ∧
        (v.description.isNull = true →
          descriptionLexemes (indentation ++ indent) v.description = []) ∧
        ∃ name more, v.name = .str name ∧ inputValueLexemes v = .name name :: more := by
  refine ⟨lexemes_arguments hblank hne hvalues, ?_, fun v hv => ⟨fun hnull => ?_, fun hnull => ?_, ?_⟩⟩
  · have hundescribed : ∀ v ∈ values.map InputValue.undescribed, v.Worded .lexical := by
      intro v hv
      obtain ⟨w, hw, rfl⟩ := List.mem_map.mp hv
      exact { hvalues w hw with description := trivial }
    rw [lexemes_arguments hblank (by simpa using hne) hundescribed, argumentLexemes,
      List.flatMap_map, argumentLexemes]
    rfl
  · have hread := lexemes_description (of_mem_deeper (by decide) hblank : ∀ c ∈
      (indentation ++ indent).toList, isIgnored c = true) v.description
    have hone := descriptionLexemes_of_isNull (indentation ++ indent) hnull
    exact ⟨_, hone, hone ▸ hread⟩
  · rw [descriptionLexemes, hnull]
    rfl
  · obtain ⟨s, hs, -⟩ := (hvalues v hv).name
    exact ⟨s, _, hs, by rw [inputValueLexemes, hs]; rfl⟩

/-- The default values hold a comma, a parenthesis and a sign, and one argument is described. -/
def filterArguments : List InputValue :=
  [{ name := .str "where", type := .nonNull (.list (.named (.str "Text")))
     defaultValue := .str "\"a, b)\"" },
   { name := .str "limit", type := .named (.str "Int"), description := .str "At most \"\"\"\n so many,"
     defaultValue := .str "1-2" }]

theorem lexemes_string : lexemes "\"a, b)\"".toList = some [.string "a, b)".toList] := by
  have hone : lexeme? "\"a, b)\"".toList = some (.string "a, b)".toList, []) := by decide
  rw [lexemes_of_lexeme hone, lexemes, Option.map_some]

theorem lexemes_numbers : lexemes "1-2".toList = some [.number ['1'], .number ['-', '2']] := by
  have hone : lexeme? "1-2".toList = some (.number ['1'], ['-', '2']) := by decide
  have htwo : lexeme? ['-', '2'] = some (.number ['-', '2'], []) := by decide
  rw [lexemes_of_lexeme hone, lexemes_of_lexeme htwo, lexemes, Option.map_some, Option.map_some]

theorem filterArguments_worded : ∀ v ∈ filterArguments, v.Worded .lexical := by
  have hwhere : IsNamed (.str "where") := ⟨_, rfl, by decide⟩
  have hlimit : IsNamed (.str "limit") := ⟨_, rfl, by decide⟩
  have htext : IsNamed (.str "Text") := ⟨_, rfl, by decide⟩
  have hint : IsNamed (.str "Int") := ⟨_, rfl, by decide⟩
  rw [filterArguments, List.forall_mem_cons, List.forall_mem_singleton]
  exact ⟨⟨hwhere, htext, trivial, .inr ⟨_, lexemes_string⟩⟩,
    ⟨hlimit, hint, trivial, .inr ⟨_, lexemes_numbers⟩⟩⟩

theorem arguments_layouts_filter :
    (∀ c ∈ indent.toList, isIgnored c = true) ∧ filterArguments ≠ [] ∧
      (∀ v ∈ filterArguments, v.Worded .lexical) ∧
      lexemes (arguments indent filterArguments).toList = some (argumentLexemes
        (fun v => descriptionLexemes (indent ++ indent) v.description) filterArguments) ∧
      lexemes (arguments indent (filterArguments.map .undescribed)).toList =
        some (argumentLexemes (fun _ => []) filterArguments) := by
  have hblank : ∀ c ∈ indent.toList, isIgnored c = true := List.all_eq_true.mp (by decide)
  have hne : filterArguments ≠ [] := List.cons_ne_nil _ _
  obtain ⟨hdescribed, hundescribed, -⟩ := arguments_layouts hblank hne filterArguments_worded
  exact ⟨hblank, hne, filterArguments_worded, hdescribed, hundescribed⟩

end Sdl
end SchemaScribe
