import SchemaScribe.Proofs.Sdl.Member

/-! # Telling declarations apart

A declaration is a keyword, a name, what the names of other types add to the header, and members
between braces if there are any. The keyword tells the kind of the type.
-/
namespace SchemaScribe

def TypeBody.Worded (w : Wording) : TypeBody → Prop
  | .scalar => True
  | .object interfaces fields | .interface interfaces fields =>
    (∀ name ∈ interfaces, Sdl.IsNamed name) ∧ ∀ f ∈ fields, f.Worded w
  | .union members => ∀ name ∈ members, Sdl.IsNamed name
  | .enum values => ∀ v ∈ values, v.Worded w
  | .inputObject fields => ∀ v ∈ fields, v.Worded w

structure TypeDef.Worded (w : Wording) (t : TypeDef) : Prop where
  name : Sdl.IsNamed t.name
  description : w.description t.description
  body : t.body.Worded w

def TypeBody.settled : TypeBody → TypeBody
  | .object interfaces fields => .object interfaces (fields.map Field.settled)
  | .interface interfaces fields => .interface interfaces (fields.map Field.settled)
  | .enum values => .enum (values.map EnumValue.settled)
  | body => body

/-- A declaration with the reasons of its members as far as they are told. -/
def TypeDef.settled (t : TypeDef) : TypeDef := { t with body := t.body.settled }

namespace Sdl

variable {α β : Type}

/-! ## Headers -/

/-- Where a header ends: at the end of its line or at an opening brace. -/
def HeaderEnds (text : List Char) : Prop := LineEnds text ∨ ∃ rest, text = ' ' :: '\x7b' :: rest

/-- A text that stands between names and begins with a blank, though not with an opening brace. -/
def IsMark (mark : List Char) : Prop := ∃ c rest, mark = ' ' :: c :: rest ∧ c ≠ '\x7b'

theorem HeaderEnds.nameEnds {r : List Char} (h : HeaderEnds r) : NameEnds r := by
  rcases h with h | ⟨rest, rfl⟩
  · refine h.imp ?_
    rintro c rfl
    decide
  · exact ⟨' ', _, by decide, rfl⟩

theorem IsMark.nameEnds {mark : List Char} (h : IsMark mark) (r : List Char) :
    NameEnds (mark ++ r) := by
  obtain ⟨c, rest, rfl, -⟩ := h
  exact ⟨' ', _, by decide, rfl⟩

theorem IsMark.not_headerEnds {mark : List Char} (h : IsMark mark) (r : List Char) :
    ¬ HeaderEnds (mark ++ r) := by
  obtain ⟨c, rest, rfl, hc⟩ := h
  rintro (hline | ⟨more, heq⟩)
  · exact not_begins_cons (p := (· = '\n')) (by decide) _ hline
  · exact hc (List.cons.inj (List.cons.inj heq).2).1

theorem nameList_cases (introduction separator : String) (names : List Value) :
    (names = [] ∧ (nameList introduction separator names).toList = []) ∨
      (names ≠ [] ∧ (nameList introduction separator names).toList =
        introduction.toList ++ joined separator.toList (fun v => v.display.toList) names) := by
  unfold nameList
  split
  · next hempty => exact .inl ⟨List.isEmpty_iff.mp hempty, rfl⟩
  · next hempty =>
    refine .inr ⟨fun h => hempty (List.isEmpty_iff.mpr h), ?_⟩
    rw [String.toList_append, toList_joinWith]

theorem separates_nameList {introduction separator : String} (hi : IsMark introduction.toList)
    (hs : IsMark separator.toList) :
    Separates (fun names => (nameList introduction separator names).toList)
      (fun names => ∀ name ∈ names, IsNamed name) HeaderEnds id := by
  have hseparates := separates_name.joined separator.toList HeaderEnds (fun r hr => hr.nameEnds)
    hs.nameEnds hs.not_headerEnds
  have hopen : ∀ {r x : List Char}, HeaderEnds r → r ≠ introduction.toList ++ x := by
    rintro r x hr rfl
    exact hi.not_headerEnds x hr
  intro names others r s hnames hothers hr hs' heq
  simp only at heq
  rcases nameList_cases introduction separator names with ⟨rfl, ht⟩ | ⟨hne, ht⟩ <;>
  rcases nameList_cases introduction separator others with ⟨rfl, ht'⟩ | ⟨hne', ht'⟩ <;>
  simp only [ht, ht', List.append_assoc] at heq
  · exact ⟨rfl, heq⟩
  · exact absurd heq (hopen hr)
  · exact absurd heq.symm (hopen hs')
  · obtain ⟨hmap, hrs⟩ := hseparates ⟨hne, hnames⟩ ⟨hne', hothers⟩ hr hs'
      (List.append_cancel_left heq)
    rw [List.map_id, List.map_id] at hmap
    exact ⟨hmap, hrs⟩

theorem nameEnds_nameList {introduction separator : String}
    (hi : IsMark introduction.toList) (names : List Value) {r : List Char} (hr : HeaderEnds r) :
    NameEnds ((nameList introduction separator names).toList ++ r) := by
  rcases nameList_cases introduction separator names with ⟨-, ht⟩ | ⟨-, ht⟩ <;> rw [ht]
  · exact hr.nameEnds
  · rw [List.append_assoc]
    exact hi.nameEnds _

/-! ## Members between braces -/

/-- Members between braces, or nothing if there are none. -/
def braces (write : α → List Char) (items : List α) : List Char :=
  if items.isEmpty then [] else ' ' :: '\x7b' :: (items.flatMap write ++ ['\n', '\x7d'])

theorem headerEnds_braces (write : α → List Char) (items : List α) {r : List Char}
    (hr : LineEnds r) : HeaderEnds (braces write items ++ r) := by
  unfold braces
  split
  · exact .inl hr
  · exact .inr ⟨_, rfl⟩

theorem toList_block (header : String) {lines : α → List String} (hlines : ∀ a, lines a ≠ [])
    (items : List α) : (block header (items.flatMap lines)).toList =
      header.toList ++ braces (fun a => lineText (lines a)) items := by
  cases items with
  | nil => simp [block, braces]
  | cons a items =>
    have hne : ((a :: items).flatMap lines).isEmpty = false := by
      simp [hlines a]
    rw [block, hne, if_neg (by simp), List.cons_append, toList_joinWith_lines, lineText_append,
      lineText_flatMap]
    simp [braces]

theorem separates_braces {write : α → List Char} {Valid : α → Prop} {view : α → β}
    (h : Separates (List.flatMap write) (fun items => ∀ a ∈ items, Valid a) (MembersEnd ['\x7d'])
      (List.map view)) :
    Separates (braces write) (fun items => ∀ a ∈ items, Valid a) LineEnds (List.map view) := by
  have hclose : ∀ x, MembersEnd ['\x7d'] ('\n' :: '\x7d' :: x) := fun x => ⟨x, rfl⟩
  intro items others r s hitems hothers hr hs heq
  unfold braces at heq
  split at heq <;> split at heq
  · next hnil hnil' =>
    rw [List.isEmpty_iff.mp hnil, List.isEmpty_iff.mp hnil']
    exact ⟨rfl, heq⟩
  · exact absurd heq (hr.ne_cons (by decide) _)
  · exact absurd heq.symm (hs.ne_cons (by decide) _)
  · simp only [List.cons_append, List.append_assoc, List.nil_append, List.cons.injEq,
      true_and] at heq
    obtain ⟨hmap, hrest⟩ := h hitems hothers (hclose r) (hclose s) heq
    exact ⟨hmap, (List.cons.inj (List.cons.inj hrest).2).2⟩

/-! ## Bodies -/

def keyword : TypeBody → String
  | .scalar => "scalar"
  | .object .. => "type"
  | .interface .. => "interface"
  | .union _ => "union"
  | .enum _ => "enum"
  | .inputObject _ => "input"

/-- What is written behind the name of an object or an interface. -/
def fieldedText (interfaces : List Value) (fields : List Field) : List Char :=
  (nameList " implements " " & " interfaces).toList ++ braces (fun f => lineText (field f)) fields

/-- What is written behind the name of a type. -/
def bodyText : TypeBody → List Char
  | .scalar => []
  | .object interfaces fields | .interface interfaces fields => fieldedText interfaces fields
  | .union members => (nameList " = " " | " members).toList
  | .enum values => braces (fun v => lineText (enumValue v)) values
  | .inputObject fields => braces (fun v => lineText (describedInputValue indent v)) fields

theorem toList_declaration (name : Value) (body : TypeBody) (r : List Char) :
    (declaration name body).toList ++ r =
      (keyword body).toList ++ ' ' :: (name.display.toList ++ (bodyText body ++ r)) := by
  have hfield : ∀ f, field f ≠ [] := fun f => List.concat_ne_nil _ _
  have henum : ∀ v, enumValue v ≠ [] := fun v => List.concat_ne_nil _ _
  have hinput : ∀ v, describedInputValue indent v ≠ [] := fun v => List.concat_ne_nil _ _
  cases body with
  | scalar => simp [declaration, keyword, bodyText]
  | object interfaces fields | interface interfaces fields =>
    simp [declaration, keyword, bodyText, fieldedText, toList_block _ hfield]
  | union members => simp [declaration, keyword, bodyText]
  | enum values => simp [declaration, keyword, bodyText, toList_block _ henum]
  | inputObject fields => simp [declaration, keyword, bodyText, toList_block _ hinput]

theorem isMark_implements : IsMark " implements ".toList := ⟨'i', _, rfl, by decide⟩
theorem isMark_and : IsMark " & ".toList := ⟨'&', _, rfl, by decide⟩
theorem isMark_equals : IsMark " = ".toList := ⟨'=', _, rfl, by decide⟩
theorem isMark_or : IsMark " | ".toList := ⟨'|', _, rfl, by decide⟩

theorem indent_apart (x y : List Char) : indent.toList ++ x ≠ ['\x7d'] ++ y := by
  simp [indent]

theorem separates_fields :
    Separates (braces fun f => lineText (field f)) (fun fields => ∀ f ∈ fields, f.Worded .plain) LineEnds
      (List.map Field.settled) := by
  refine separates_braces ?_
  simp only [field_eq]
  exact separates_members (by simpa only [field_eq] using separates_field)
    (fun f hf => fieldLine_begins hf) indent_apart

theorem separates_enumValues :
    Separates (braces fun v => lineText (enumValue v)) (fun values => ∀ v ∈ values, v.Worded .plain)
      LineEnds (List.map EnumValue.settled) := by
  refine separates_braces ?_
  simp only [enumValue_eq]
  exact separates_members (by simpa only [enumValue_eq] using separates_enumValue)
    (fun v hv => enumValueLine_begins hv) indent_apart

theorem separates_inputFields :
    Separates (braces fun v => lineText (describedInputValue indent v))
      (fun fields => ∀ v ∈ fields, v.Worded .plain) LineEnds (List.map id) :=
  separates_braces (separates_members (separates_describedInputValue indent_plain)
    (fun _ hv => inputValue_begins hv) indent_apart)

theorem eq_of_fieldedText {interfaces others : List Value} {fields fields' : List Field}
    {r s : List Char} (ha : (∀ name ∈ interfaces, IsNamed name) ∧ ∀ f ∈ fields, f.Worded .plain)
    (hb : (∀ name ∈ others, IsNamed name) ∧ ∀ f ∈ fields', f.Worded .plain) (hr : LineEnds r)
    (hs : LineEnds s) (h : fieldedText interfaces fields ++ r = fieldedText others fields' ++ s) :
    interfaces = others ∧ fields.map Field.settled = fields'.map Field.settled ∧ r = s := by
  simp only [fieldedText, List.append_assoc] at h
  obtain ⟨hinterfaces, hfields⟩ := separates_nameList isMark_implements isMark_and ha.1 hb.1
    (headerEnds_braces _ fields hr) (headerEnds_braces _ fields' hs) h
  obtain ⟨hmap, hrs⟩ := separates_fields ha.2 hb.2 hr hs hfields
  exact ⟨hinterfaces, hmap, hrs⟩

/-- What is written behind the name tells the body of a type whose kind is known. -/
theorem eq_of_bodyText {a b : TypeBody} (hkeyword : keyword a = keyword b) (ha : a.Worded .plain)
    (hb : b.Worded .plain) {r s : List Char} (hr : LineEnds r) (hs : LineEnds s)
    (h : bodyText a ++ r = bodyText b ++ s) : a.settled = b.settled ∧ r = s := by
  cases a <;> cases b <;> simp only [keyword, String.reduceEq] at hkeyword
  case scalar.scalar => exact ⟨rfl, h⟩
  case object.object interfaces fields others fields' =>
    obtain ⟨hinterfaces, hfields, hrs⟩ := eq_of_fieldedText ha hb hr hs h
    exact ⟨by rw [TypeBody.settled, TypeBody.settled, hinterfaces, hfields], hrs⟩
  case interface.interface interfaces fields others fields' =>
    obtain ⟨hinterfaces, hfields, hrs⟩ := eq_of_fieldedText ha hb hr hs h
    exact ⟨by rw [TypeBody.settled, TypeBody.settled, hinterfaces, hfields], hrs⟩
  case union.union members others =>
    obtain ⟨hmembers, hrs⟩ := separates_nameList isMark_equals isMark_or ha hb (.inl hr) (.inl hs) h
    exact ⟨congrArg TypeBody.union hmembers, hrs⟩
  case enum.enum values others =>
    obtain ⟨hvalues, hrs⟩ := separates_enumValues ha hb hr hs h
    exact ⟨congrArg TypeBody.enum hvalues, hrs⟩
  case inputObject.inputObject fields others =>
    obtain ⟨hfields, hrs⟩ := separates_inputFields ha hb hr hs h
    rw [List.map_id, List.map_id] at hfields
    exact ⟨congrArg TypeBody.inputObject hfields, hrs⟩

theorem nameEnds_bodyText (body : TypeBody) {r : List Char} (hr : LineEnds r) :
    NameEnds (bodyText body ++ r) := by
  cases body with
  | scalar => exact HeaderEnds.nameEnds (.inl hr)
  | object interfaces fields | interface interfaces fields =>
    rw [bodyText, fieldedText, List.append_assoc]
    exact nameEnds_nameList isMark_implements interfaces (headerEnds_braces _ fields hr)
  | union members => exact nameEnds_nameList isMark_equals members (.inl hr)
  | enum values => exact (headerEnds_braces _ values hr).nameEnds
  | inputObject fields => exact (headerEnds_braces _ fields hr).nameEnds

/-! ## Types -/

theorem isName_keyword (body : TypeBody) : isName (keyword body).toList = true := by
  cases body <;> rw [keyword] <;> decide

theorem declaration_begins (t : TypeDef) (r : List Char) :
    Begins (isNameStart · = true) ((declaration t.name t.body).toList ++ r) := by
  rw [toList_declaration]
  exact IsNamed.begins ⟨_, rfl, isName_keyword t.body⟩ _

theorem separates_declaration :
    Separates (fun t : TypeDef => (declaration t.name t.body).toList) (TypeDef.Worded .plain) LineEnds
      (fun t => { t.settled with description := .null }) := by
  intro t u r s ht hu hr hs heq
  simp only [toList_declaration] at heq
  have hblank : ∀ x, NameEnds (' ' :: x) := fun x => begins_cons (by decide) x
  obtain ⟨_, _, -, -, hrun⟩ := isName_cases (isName_keyword t.body)
  obtain ⟨_, _, -, -, hrun'⟩ := isName_cases (isName_keyword u.body)
  obtain ⟨hkeyword, hafter⟩ := eq_of_run hrun hrun' (hblank _) (hblank _) heq
  obtain ⟨hname, hbody⟩ := separates_name ht.name hu.name (nameEnds_bodyText t.body hr)
    (nameEnds_bodyText u.body hs) (List.cons.inj hafter).2
  obtain ⟨hsettled, hrs⟩ := eq_of_bodyText (String.toList_injective hkeyword) ht.body hu.body hr hs
    hbody
  simp only [id] at hname
  exact ⟨by simp only [TypeDef.settled, hname, hsettled], hrs⟩

theorem lineText_typeDef (t : TypeDef) :
    '\n' :: (typeDef t).toList =
      lineText (descriptionLines "" t.description ++ ["" ++ declaration t.name t.body]) := by
  rw [typeDef, String.empty_append]
  obtain ⟨line, lines, hlines⟩ := List.exists_cons_of_ne_nil
    (List.concat_ne_nil (declaration t.name t.body) (descriptionLines "" t.description))
  rw [hlines, toList_joinWith_lines]
  rfl

theorem separates_typeDef :
    Separates (fun t => '\n' :: (typeDef t).toList) (TypeDef.Worded .plain) LineEnds TypeDef.settled := by
  have h := separates_described "" (fun t : TypeDef => declaration t.name t.body)
    TypeDef.description separates_declaration (by simp) fun t _ => declaration_begins t
  intro t u r s ht hu hr hs heq
  simp only [lineText_typeDef] at heq
  obtain ⟨hview, hrs⟩ := h ⟨ht.description, ht⟩ ⟨hu.description, hu⟩ hr hs heq
  exact ⟨congrArg (fun p : Value × TypeDef => { p.2 with description := p.1 }) hview, hrs⟩

end Sdl
end SchemaScribe
