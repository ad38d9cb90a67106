import SchemaScribe.Proofs.Sdl.Declaration

/-! # What the text of a schema tells

Schemas whose texts agree have the same declarations, up to reasons that are not told, and the same
roots, unless both leave theirs out. So the text of a schema loses nothing else.
-/
namespace SchemaScribe

structure Schema.Worded (w : Wording) (s : Schema) : Prop where
  types : ∀ t ∈ s.types, t.Worded w
  roots : ∀ root ∈ s.roots, root.2 = .null ∨ Sdl.IsNamed root.2

namespace Sdl

/-! ## Roots -/

def rootLine (root : String × Value) : String := root.1 ++ ": " ++ root.2.display

def presentRoots (s : Schema) : List (String × Value) := s.roots.filter fun root => !root.2.isNull

/-- Is it an operation with the name of its type? -/
def IsRootLine (root : String × Value) : Prop := isName root.1.toList = true ∧ IsNamed root.2

theorem toList_rootLine (root : String × Value) (r : List Char) :
    (rootLine root).toList ++ r = root.1.toList ++ (':' :: ' ' :: (root.2.display.toList ++ r)) := by
  simp [rootLine]

theorem rootLine_begins {root : String × Value} (h : IsRootLine root) (r : List Char) :
    Begins (isNameStart · = true) ((rootLine root).toList ++ r) := by
  rw [toList_rootLine]
  exact IsNamed.begins ⟨_, rfl, h.1⟩ _

theorem separates_rootLine :
    Separates (fun root => (rootLine root).toList) IsRootLine LineEnds id := by
  rintro ⟨operation, name⟩ ⟨operation', name'⟩ r s ⟨hoperation, hname⟩ ⟨hoperation', hname'⟩ hr hs heq
  simp only [toList_rootLine] at heq
  have hcolon : ∀ x, NameEnds (':' :: x) := fun x => begins_cons (by decide) x
  obtain ⟨_, _, -, -, hrun⟩ := isName_cases hoperation
  obtain ⟨_, _, -, -, hrun'⟩ := isName_cases hoperation'
  obtain ⟨hoperations, hafter⟩ := eq_of_run hrun hrun' (hcolon _) (hcolon _) heq
  obtain ⟨hnames, hrs⟩ := separates_name hname hname' (HeaderEnds.nameEnds (.inl hr))
    (HeaderEnds.nameEnds (.inl hs)) (List.cons.inj (List.cons.inj hafter).2).2
  exact ⟨Prod.ext (String.toList_injective hoperations) hnames, hrs⟩

theorem separates_rootLines :
    Separates (braces fun root => lineText [indent ++ rootLine root])
      (fun roots => ∀ root ∈ roots, IsDescription .null ∧ IsRootLine root) LineEnds
      (List.map fun root => (Value.null, root)) :=
  separates_braces (separates_members (separates_described indent rootLine (fun _ => .null)
    separates_rootLine indent_plain fun _ h => rootLine_begins h)
    (fun _ h => rootLine_begins h.2) indent_apart)

theorem toList_rootBlock (s : Schema) :
    (rootBlock s).toList =
      "schema".toList ++ braces (fun root => lineText [indent ++ rootLine root]) (presentRoots s) := by
  have hlines : ((presentRoots s).map fun root => indent ++ root.1 ++ ": " ++ root.2.display) =
      (presentRoots s).flatMap fun root => [indent ++ rootLine root] := by
    rw [List.map_eq_flatMap]
    simp [rootLine, String.append_assoc]
  have hblock : rootBlock s = block "schema" ((presentRoots s).map fun root =>
      indent ++ root.1 ++ ": " ++ root.2.display) := rfl
  rw [hblock, hlines, toList_block]
  simp

theorem isRootLine_of_present {w : Wording} {s : Schema} (hs : s.Worded w) :
    ∀ root ∈ presentRoots s, IsDescription .null ∧ IsRootLine root := by
  intro root hroot
  obtain ⟨hmem, hpresent⟩ := List.mem_filter.mp hroot
  refine ⟨.inl rfl, ?_, ?_⟩
  · simp only [Schema.roots, List.mem_cons, List.not_mem_nil, or_false] at hmem
    rcases hmem with rfl | rfl | rfl <;> dsimp only <;> decide
  · rcases hs.roots root hmem with hnull | hnamed
    · simp [hnull, Value.isNull] at hpresent
    · exact hnamed

theorem lookup_presentRoots (s : Schema) :
    (presentRoots s).lookup "query" = (if s.query.isNull then none else some s.query) ∧
    (presentRoots s).lookup "mutation" = (if s.mutation.isNull then none else some s.mutation) ∧
    (presentRoots s).lookup "subscription" =
      (if s.subscription.isNull then none else some s.subscription) := by
  cases hq : s.query.isNull <;> cases hm : s.mutation.isNull <;>
    cases hn : s.subscription.isNull <;>
    simp [presentRoots, Schema.roots, List.lookup_cons, hq, hm, hn]

theorem eq_of_present {v w : Value}
    (h : (if v.isNull then none else some v) = (if w.isNull then none else some w)) : v = w := by
  split at h <;> split at h
  · next hv hw => rw [eq_null_of_isNull hv, eq_null_of_isNull hw]
  · exact absurd h (by simp)
  · exact absurd h (by simp)
  · exact Option.some.inj h

theorem roots_eq_of_present {s t : Schema} (h : presentRoots s = presentRoots t) :
    s.roots = t.roots := by
  obtain ⟨hq, hm, hn⟩ := lookup_presentRoots s
  obtain ⟨hq', hm', hn'⟩ := lookup_presentRoots t
  rw [h] at hq hm hn
  rw [Schema.roots, Schema.roots, eq_of_present (hq.symm.trans hq'),
    eq_of_present (hm.symm.trans hm'), eq_of_present (hn.symm.trans hn')]

/-! ## The whole text -/

/-- The root block with the empty line before it, if it is printed. -/
def rootText (s : Schema) : List Char :=
  if hasConventionalRoots s then [] else '\n' :: '\n' :: (rootBlock s).toList

/-- The declarations with the empty lines before them. -/
def typesText (types : List TypeDef) : List Char :=
  types.flatMap fun t => '\n' :: '\n' :: (typeDef t).toList

/-- The text with an empty line before it, or the line feed that the empty text lacks. -/
def padded (text : String) : List Char :=
  if text.toList.isEmpty then ['\n'] else '\n' :: '\n' :: text.toList

theorem padded_schemaText (s : Schema) :
    padded (schemaText s) = rootText s ++ (typesText s.types ++ ['\n']) := by
  have hblocks : rootText s ++ typesText s.types =
      (blocks s).flatMap fun b => '\n' :: '\n' :: b.toList := by
    rw [blocks, rootText, typesText]
    cases hasConventionalRoots s <;> simp [List.flatMap_map]
  rw [← List.append_assoc, hblocks, schemaText]
  match hs : blocks s with
  | [] => rfl
  | b :: more =>
    have hjoined := toList_joinWith "\n\n" id (b :: more)
    rw [List.map_id] at hjoined
    simp [padded, hjoined, joined]

theorem separates_types :
    Separates typesText (fun types => ∀ t ∈ types, t.Worded .plain) (· = ['\n'])
      (List.map TypeDef.settled) := by
  have hseparates : Separates (fun t => '\n' :: '\n' :: (typeDef t).toList) (TypeDef.Worded .plain) LineEnds
      TypeDef.settled := by
    intro t u r s ht hu hr hs heq
    exact separates_typeDef ht hu hr hs (List.cons.inj heq).2
  refine hseparates.flatMap ?_ (fun t r _ => ⟨'\n', _, rfl, rfl⟩) (fun t r _ h => ?_)
  · rintro r rfl
    exact ⟨'\n', [], rfl, rfl⟩
  · exact absurd (List.cons.inj h).2 (by simp)

theorem lineEnds_typesText (types : List TypeDef) {r : List Char} (hr : LineEnds r) :
    LineEnds (typesText types ++ r) := by
  cases types with
  | nil => exact hr
  | cons t types => exact ⟨'\n', _, rfl, rfl⟩

/-- A root block is no declaration. -/
theorem rootBlock_apart (s : Schema) (types : List TypeDef) (htypes : ∀ t ∈ types, t.Worded .plain)
    {r : List Char} (hr : LineEnds r) :
    '\n' :: '\n' :: (rootBlock s).toList ++ r ≠ typesText types ++ ['\n'] := by
  intro heq
  rw [toList_rootBlock] at heq
  cases types with
  | nil => simp [typesText] at heq
  | cons t types =>
    have ht := htypes t (List.mem_cons_self ..)
    -- A declaration begins with quotes or with one of six words, and `schema` is none of them.
    simp only [typesText, List.flatMap_cons, List.cons_append, lineText_typeDef, List.append_assoc,
      List.cons.injEq, true_and] at heq
    rcases ht.description with hnull | ⟨d, hd, -⟩
    · have hname : isName "schema".toList = true := by decide
      obtain ⟨_, _, -, -, hrun⟩ := isName_cases hname
      obtain ⟨_, _, -, -, hrun'⟩ := isName_cases (isName_keyword t.body)
      rw [hnull, show descriptionLines "" Value.null = [] from rfl, List.nil_append, lineText_cons,
        String.empty_append, lineText_nil, List.append_nil, List.cons_append,
        toList_declaration] at heq
      obtain ⟨hkeyword, -⟩ := eq_of_run hrun hrun' (headerEnds_braces _ _ hr).nameEnds
        (begins_cons (by decide) _) (List.cons.inj heq).2
      have hschema := String.toList_injective hkeyword
      cases hbody : t.body <;> simp [hbody, keyword] at hschema
    · rw [lineText_append, hd, lineText_descriptionLines "" rfl] at heq
      simp [tripleQuote] at heq

theorem eq_of_rootBlock {s t : Schema} (hs : s.Worded .plain) (ht : t.Worded .plain) {r x : List Char}
    (hr : LineEnds r) (hx : LineEnds x)
    (h : (rootBlock s).toList ++ r = (rootBlock t).toList ++ x) : s.roots = t.roots ∧ r = x := by
  rw [toList_rootBlock, toList_rootBlock, List.append_assoc, List.append_assoc] at h
  obtain ⟨hmap, hrx⟩ := separates_rootLines (isRootLine_of_present hs) (isRootLine_of_present ht)
    hr hx (List.append_cancel_left h)
  have hroots := congrArg (List.map Prod.snd) hmap
  rw [List.map_map, List.map_map] at hroots
  exact ⟨roots_eq_of_present ((List.map_id _).symm.trans (hroots.trans (List.map_id _))), hrx⟩

/-- Two schemas have the same roots as far as they are told: a schema whose roots are missing or have
the conventional names tells none. -/
def SameRoots (s t : Schema) : Prop :=
  s.roots = t.roots ∨ (hasConventionalRoots s = true ∧ hasConventionalRoots t = true)

theorem eq_of_padded {s t : Schema} (hs : s.Worded .plain) (ht : t.Worded .plain)
    (h : padded (schemaText s) = padded (schemaText t)) :
    s.types.map TypeDef.settled = t.types.map TypeDef.settled ∧ SameRoots s t := by
  rw [padded_schemaText, padded_schemaText] at h
  have hends := lineEnds_typesText s.types ⟨'\n', [], rfl, rfl⟩
  have hends' := lineEnds_typesText t.types ⟨'\n', [], rfl, rfl⟩
  cases hc : hasConventionalRoots s <;> cases hc' : hasConventionalRoots t <;>
    simp only [rootText, hc, hc', if_true, Bool.false_eq_true, if_false, List.nil_append] at h
  · obtain ⟨hroots, htypes⟩ := eq_of_rootBlock hs ht hends hends'
      (List.cons.inj (List.cons.inj h).2).2
    exact ⟨(separates_types hs.types ht.types rfl rfl htypes).1, .inl hroots⟩
  · exact absurd h (rootBlock_apart s t.types ht.types hends)
  · exact absurd h.symm (rootBlock_apart t s.types hs.types hends')
  · exact ⟨(separates_types hs.types ht.types rfl rfl h).1, .inr ⟨hc, hc'⟩⟩

/-! ## What is told -/

theorem field_settled (f : Field) : field f.settled = field f := by
  rw [field_eq, field_eq, fieldLine, fieldLine, Field.settled, deprecation_settled]

theorem enumValue_settled (v : EnumValue) : enumValue v.settled = enumValue v := by
  rw [enumValue_eq, enumValue_eq, enumValueLine, enumValueLine, EnumValue.settled,
    deprecation_settled]

theorem declaration_settled (name : Value) (body : TypeBody) :
    declaration name body.settled = declaration name body := by
  cases body <;>
    simp only [TypeBody.settled, declaration, List.flatMap_map, field_settled, enumValue_settled]

theorem typeDef_settled (t : TypeDef) : typeDef t.settled = typeDef t := by
  rw [typeDef, typeDef, TypeDef.settled, declaration_settled]

theorem schemaText_eq_of_settled {s t : Schema}
    (htypes : s.types.map TypeDef.settled = t.types.map TypeDef.settled) (hroots : SameRoots s t) :
    schemaText s = schemaText t := by
  have htexts : s.types.map typeDef = t.types.map typeDef := by
    have h := congrArg (List.map typeDef) htypes
    rw [List.map_map, List.map_map] at h
    simpa only [Function.comp_def, typeDef_settled] using h
  have hblocks : blocks s = blocks t := by
    rcases hroots with h | ⟨hs, ht⟩
    · have hquery : s.query = t.query ∧ s.mutation = t.mutation ∧ s.subscription = t.subscription := by
        simpa [Schema.roots] using h
      rw [blocks, blocks, htexts, rootBlock, rootBlock, h, hasConventionalRoots,
        hasConventionalRoots, hquery.1, hquery.2.1, hquery.2.2]
    · rw [blocks, blocks, hs, ht, htexts]
      rfl
  rw [schemaText, schemaText, hblocks]

theorem isString_of_isNamed {v : Value} (h : IsNamed v) : v.isString = true := by
  obtain ⟨s, rfl, -⟩ := h
  rfl

theorem isString_joinedNames {w : Wording} {body : TypeBody} (h : body.Worded w) :
    ∀ name ∈ joinedNames body, name.isString = true := by
  intro name hname
  cases body with
  | scalar | inputObject fields => simp [joinedNames] at hname
  | object interfaces fields | interface interfaces fields =>
    exact isString_of_isNamed (h.1 name hname)
  | union members => exact isString_of_isNamed (h name hname)
  | enum values =>
    obtain ⟨v, hv, rfl⟩ := List.mem_map.mp hname
    exact isString_of_isNamed (h v hv).name

theorem print_eq_ok {w : Wording} {s : Schema} (hs : s.Worded w) : print s = .ok (schemaText s) :=
  print_of_isString fun t ht => isString_joinedNames (hs.types t ht).body

/-- Schemas whose names are names of the language are printed, and their texts agree exactly if
their declarations do, but for reasons that are not told, and their roots as far as they are told. -/
theorem print_eq_iff {s t : Schema} (hs : s.Worded .plain) (ht : t.Worded .plain) :
    ∃ text text', print s = .ok text ∧ print t = .ok text' ∧
      (text = text' ↔
        s.types.map TypeDef.settled = t.types.map TypeDef.settled ∧ SameRoots s t) := by
  refine ⟨schemaText s, schemaText t, print_eq_ok hs, print_eq_ok ht, fun h => ?_, fun h => ?_⟩
  · exact eq_of_padded hs ht (congrArg padded h)
  · exact schemaText_eq_of_settled h.1 h.2

/-- A schema with a deprecated value, for any reason, and with any query root. -/
def paintSchema (reason query : Value) : Schema where
  types := [{
    name := .str "Paint"
    description := .str "What is left\nin the shed."
    body := .enum [{ name := .str "RED", deprecated := true, reason := reason }] }]
  query := query

theorem paintSchema_plain {reason query : Value} (hreason : IsOptional (fun _ => True) reason)
    (hquery : query = .null ∨ IsNamed query) : (paintSchema reason query).Worded .plain := by
  have hpaint : IsNamed (.str "Paint") := ⟨_, rfl, by decide⟩
  have hred : IsNamed (.str "RED") := ⟨_, rfl, by decide⟩
  refine ⟨?_, ?_⟩
  · intro t ht
    obtain rfl := List.mem_singleton.mp ht
    refine ⟨hpaint, .inr ⟨_, rfl, trivial⟩, ?_⟩
    intro v hv
    obtain rfl := List.mem_singleton.mp hv
    exact ⟨hred, .inl rfl, hreason⟩
  · simpa [paintSchema, Schema.roots] using hquery

/-- No reason prints like the default one, and a conventional root like none. -/
theorem print_eq_iff_paint :
    (paintSchema .null .null).Worded .plain ∧ (paintSchema (.str defaultReason) (.str "Query")).Worded .plain ∧
      ∃ text, print (paintSchema .null .null) = .ok text ∧
        print (paintSchema (.str defaultReason) (.str "Query")) = .ok text := by
  have hs : (paintSchema .null .null).Worded .plain := paintSchema_plain (.inl rfl) (.inl rfl)
  have ht : (paintSchema (.str defaultReason) (.str "Query")).Worded .plain :=
    paintSchema_plain (.inr ⟨_, rfl, trivial⟩) (.inr ⟨_, rfl, by decide⟩)
  obtain ⟨text, text', htext, htext', hiff⟩ := print_eq_iff hs ht
  have hsame : text = text' := hiff.mpr ⟨by
    simp [paintSchema, TypeDef.settled, TypeBody.settled, EnumValue.settled, settledReason],
    .inr ⟨rfl, by
      simp [hasConventionalRoots, isConventional, paintSchema, Value.isNull]⟩⟩
  exact ⟨hs, ht, text, htext, hsame ▸ htext'⟩

end Sdl
end SchemaScribe
