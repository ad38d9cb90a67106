import SchemaScribe.Proofs.Introspection.Described
import SchemaScribe.Proofs.Sdl.Skim
import SchemaScribe.Proofs.Sdl.Injective

/-! # Reading the roots back

From the text of a schema the reader comes out with the roots of the schema block, or, where there
is none, with the object types that have the conventional names. These are the roots of the schema
unless it leaves out the block though a conventional name is that of an object type without being a
root, or is a root without being that of an object type.
-/
namespace SchemaScribe.Sdl

def objectName (t : TypeDef) : List String :=
  match t.body with
  | .object .. => [t.name.display]
  | _ => []

/-! ## Declarations -/

section
variable {reading : Reading}

theorem step_ready_name (hready : reading.stage.isReady = true) {word : String}
    (hword : word ≠ "implements") : reading.step (.name word) = reading.onKeyword (.name word) := by
  obtain ⟨stage, roots, objects⟩ := reading
  cases stage <;>
    simp [Stage.isReady, Reading.step, Reading.onStart, Reading.onMembers, hword] at hready ⊢

theorem step_ready_text (hready : reading.stage.isReady = true) (value : List Char) :
    reading.step (.text value) = some { reading with stage := .described } := by
  obtain ⟨stage, roots, objects⟩ := reading
  cases stage <;> simp [Stage.isReady, Reading.step, Reading.onStart, Reading.onMembers] at hready ⊢

theorem onKeyword_type (body : TypeBody) :
    reading.onKeyword (.name (keyword body)) =
      some { reading with stage := .keyword (keyword body) } := by
  cases body <;> simp [Reading.onKeyword, keyword, typeKeywords]

end

/-- Names with a separator, in a list of a header. -/
theorem takes_names {separator : Char} (hmark : isMark separator = true) {names : List Value}
    (hne : names ≠ []) (hnames : ∀ name ∈ names, IsNamed name) (roots : Option (List (String × String)))
    (objects : List String) :
    Takes ⟨.listing separator, roots, objects⟩
      (joined [' ', separator, ' '] (fun v => v.display.toList) names) HeaderEnds
      ⟨.listed separator, roots, objects⟩ := by
  have hname : ∀ {v : Value}, IsNamed v → ∀ more,
      Takes ⟨.listed separator, roots, objects⟩ more HeaderEnds ⟨.listed separator, roots, objects⟩ →
      (∀ r, HeaderEnds r → NameEnds (more ++ r)) →
      Takes ⟨.listing separator, roots, objects⟩ (v.display.toList ++ more) HeaderEnds
        ⟨.listed separator, roots, objects⟩ := by
    rintro _ ⟨s, rfl, hs⟩ more hmore hlast
    exact .name hs rfl hmore hlast
  have hnext : ∀ v ∈ names, ∀ more,
      Takes ⟨.listed separator, roots, objects⟩ more HeaderEnds ⟨.listed separator, roots, objects⟩ →
      (∀ r, HeaderEnds r → NameEnds (more ++ r)) →
      Takes ⟨.listed separator, roots, objects⟩ ([' ', separator, ' '] ++ v.display.toList ++ more)
        HeaderEnds ⟨.listed separator, roots, objects⟩ := by
    intro v hv more hmore hlast
    have hstep : Reading.step ⟨.listed separator, roots, objects⟩ (.mark separator) =
        some ⟨.listing separator, roots, objects⟩ := by
      simp [Reading.step]
    exact .ignored (by decide) (.mark hmark hstep (.ignored (by decide)
      (hname (hnames v hv) more hmore hlast)))
  have hbegin : ∀ (v : Value) r, NameEnds ([' ', separator, ' '] ++ v.display.toList ++ r) :=
    fun v r => begins_cons (by decide) _
  obtain ⟨v, names, rfl⟩ := List.exists_cons_of_ne_nil hne
  obtain ⟨hrest, hlast⟩ := takes_flatMap (fun v : Value => [' ', separator, ' '] ++ v.display.toList)
    names (.nil : Takes ⟨.listed separator, roots, objects⟩ [] HeaderEnds _)
    (fun w hw => hnext w (List.mem_cons_of_mem v hw)) hbegin fun r hr => hr.nameEnds
  have hall := hname (hnames v (List.mem_cons_self ..)) _ hrest hlast
  simpa [joined] using hall

theorem takes_implements {interfaces : List Value} (h : ∀ name ∈ interfaces, IsNamed name)
    (roots : Option (List (String × String))) (objects : List String) :
    ∃ stage : Stage, (stage = .named ∨ stage = .listed '&') ∧
      Takes ⟨.named, roots, objects⟩ (nameList " implements " " & " interfaces).toList HeaderEnds
        ⟨stage, roots, objects⟩ := by
  rcases nameList_cases " implements " " & " interfaces with ⟨-, ht⟩ | ⟨hne, ht⟩ <;> rw [ht]
  · exact ⟨.named, .inl rfl, .nil⟩
  · have hnames := takes_names (by decide : isMark '&' = true) hne h roots objects
    have hword : Takes ⟨.named, roots, objects⟩ _ HeaderEnds ⟨.listed '&', roots, objects⟩ :=
      .name (by decide : isName "implements".toList = true) rfl
        (.ignored (by decide : isIgnored ' ' = true) hnames) fun r _ => begins_cons (by decide) _
    exact ⟨.listed '&', .inr rfl, .ignored (by decide : isIgnored ' ' = true) hword⟩

theorem takes_members {members : List Value} (h : ∀ name ∈ members, IsNamed name)
    (roots : Option (List (String × String))) (objects : List String) :
    ∃ stage : Stage, stage.isReady = true ∧
      Takes ⟨.named, roots, objects⟩ (nameList " = " " | " members).toList HeaderEnds
        ⟨stage, roots, objects⟩ := by
  rcases nameList_cases " = " " | " members with ⟨-, ht⟩ | ⟨hne, ht⟩ <;> rw [ht]
  · exact ⟨.named, rfl, .nil⟩
  · have hnames := takes_names (by decide : isMark '|' = true) hne h roots objects
    have hmark : Takes ⟨.named, roots, objects⟩ _ HeaderEnds ⟨.listed '|', roots, objects⟩ :=
      .mark (by decide : isMark '=' = true) rfl (.ignored (by decide : isIgnored ' ' = true) hnames)
    exact ⟨.listed '|', rfl, .ignored (by decide : isIgnored ' ' = true) hmark⟩

theorem takes_fields {fields : List Field} (h : ∀ f ∈ fields, f.Worded .literal)
    {reading : Reading} (hstage : reading.stage = .named ∨ reading.stage = .listed '&') :
    ∃ stage : Stage, stage.isReady = true ∧
      Takes reading (braces (fun f => lineText (field f)) fields) LineEnds
        { reading with stage := stage } := by
  have hopen : reading.step (.mark '\x7b') = some { reading with stage := .inside 0 } := by
    rcases hstage with hstage | hstage <;> simp [Reading.step, Reading.onMembers, hstage]
  have hready : reading.stage.isReady = true := by
    rcases hstage with hstage | hstage <;> simp [Stage.isReady, hstage]
  simp only [field_eq]
  exact takes_braces hopen hready indent_blank fun f hf inner text Next hinner htext hnext =>
    skims_fieldLine hinner htext (h f hf) hnext

/-- The body of a type is passed over from behind its name. -/
theorem takes_bodyText {body : TypeBody} (hbody : body.Worded .literal)
    (roots : Option (List (String × String))) (objects : List String) :
    ∃ stage : Stage, stage.isReady = true ∧
      Takes ⟨.named, roots, objects⟩ (bodyText body) LineEnds ⟨stage, roots, objects⟩ := by
  cases body with
  | scalar => exact ⟨.named, rfl, .nil⟩
  | object interfaces fields | interface interfaces fields =>
    obtain ⟨stage, hstage, hnames⟩ := takes_implements hbody.1 roots objects
    obtain ⟨stage', hready, hfields⟩ := takes_fields hbody.2
      (show (Reading.mk stage roots objects).stage = _ ∨ _ from hstage)
    exact ⟨stage', hready, hnames.append hfields fun r hr => headerEnds_braces _ fields hr⟩
  | union members =>
    obtain ⟨stage, hready, hnames⟩ := takes_members hbody roots objects
    exact ⟨stage, hready, hnames.weaken fun r hr => .inl hr⟩
  | enum values =>
    simp only [bodyText, enumValue_eq]
    exact takes_braces rfl rfl indent_blank fun v hv inner text Next hinner htext hnext =>
      skims_enumValueLine hinner htext (hbody v hv) hnext
  | inputObject fields =>
    exact takes_braces rfl rfl indent_blank fun v hv inner text Next hinner htext hnext =>
      skims_inputValue hinner htext (hbody v hv) fun r hr => (hnext r hr).valueEnds

/-- A declaration is passed over, but for the name of an object type. -/
theorem takes_declaration {t : TypeDef} (ht : t.Worded .literal) {reading : Reading}
    (hstep : reading.step (.name (keyword t.body)) =
      some { reading with stage := .keyword (keyword t.body) }) :
    ∃ stage : Stage, stage.isReady = true ∧
      Takes reading (declaration t.name t.body).toList LineEnds
        ⟨stage, reading.roots, reading.objects ++ objectName t⟩ := by
  obtain ⟨s, hs, hname⟩ := ht.name
  have hobject : Reading.step { reading with stage := .keyword (keyword t.body) } (.name s) =
      some ⟨.named, reading.roots, reading.objects ++ objectName t⟩ := by
    cases hbody : t.body <;> simp [Reading.step, keyword, objectName, hbody, hs]
  obtain ⟨stage, hready, hbody⟩ := takes_bodyText ht.body reading.roots
    (reading.objects ++ objectName t)
  have hafter := Takes.ignored (by decide : isIgnored ' ' = true)
    (.name hname hobject hbody fun r hr => nameEnds_bodyText t.body hr)
  have hall := Takes.name (isName_keyword t.body) hstep hafter fun r _ => begins_cons (by decide) _
  refine ⟨stage, hready, ?_⟩
  have htext := toList_declaration t.name t.body []
  simp only [List.append_nil] at htext
  rw [htext, hs]
  exact hall

theorem takes_typeDef {t : TypeDef} (ht : t.Worded .literal) {reading : Reading}
    (hready : reading.stage.isReady = true) :
    ∃ stage : Stage, stage.isReady = true ∧
      Takes reading ('\n' :: '\n' :: (typeDef t).toList) LineEnds
        ⟨stage, reading.roots, reading.objects ++ objectName t⟩ := by
  have hkeyword : keyword t.body ≠ "implements" := by
    cases t.body <;> simp [keyword]
  have hblank : ∀ c ∈ "".toList, isIgnored c = true := by simp
  rw [lineText_typeDef, lineText_append, String.empty_append, lineText_cons, lineText_nil,
    List.append_nil]
  cases hnull : t.description.isNull with
  | true =>
    obtain ⟨stage, hstage, hdeclaration⟩ := takes_declaration ht
      ((step_ready_name hready hkeyword).trans (onKeyword_type t.body))
    rw [descriptionLines_of_isNull "" hnull]
    exact ⟨stage, hstage, .ignored (by decide) (.ignored (by decide) hdeclaration)⟩
  | false =>
    have hkeyword' : Reading.step { reading with stage := .described } (.name (keyword t.body)) =
        some { reading with stage := .keyword (keyword t.body) } := onKeyword_type t.body
    obtain ⟨stage, hstage, hdeclaration⟩ := takes_declaration ht hkeyword'
    exact ⟨stage, hstage, .ignored (by decide) (.description hblank hnull
      (step_ready_text hready) (.ignored (by decide) hdeclaration))⟩

theorem takes_types {types : List TypeDef} (htypes : ∀ t ∈ types, t.Worded .literal)
    {reading : Reading} (hready : reading.stage.isReady = true) :
    ∃ stage : Stage, stage.isReady = true ∧
      Takes reading (typesText types) LineEnds
        ⟨stage, reading.roots, reading.objects ++ types.flatMap objectName⟩ := by
  induction types generalizing reading with
  | nil =>
    refine ⟨reading.stage, hready, ?_⟩
    rw [List.flatMap_nil, List.append_nil]
    exact .nil
  | cons t types ih =>
    obtain ⟨stage, hstage, hfirst⟩ := takes_typeDef (htypes t (List.mem_cons_self ..)) hready
    obtain ⟨stage', hstage', hrest⟩ := ih (fun u hu => htypes u (List.mem_cons_of_mem t hu))
      (show (Reading.mk stage reading.roots (reading.objects ++ objectName t)).stage.isReady = true
        from hstage)
    refine ⟨stage', hstage', ?_⟩
    rw [List.append_assoc] at hrest
    exact hfirst.append hrest fun r hr => next_flatMap _ (fun _ h => h)
      (fun u x _ => ⟨'\n', _, rfl, rfl⟩) (fun u hu => htypes u (List.mem_cons_of_mem t hu)) hr

/-! ## The schema block -/

theorem takes_rootLines {roots : List (String × Value)} (hroots : ∀ root ∈ roots, IsRootLine root)
    (done : List (String × String)) (objects : List String) :
    Takes ⟨.roots, some done, objects⟩
      (roots.flatMap fun root => lineText [indent ++ rootLine root]) LineEnds
      ⟨.roots, some (done ++ roots.map fun root => (root.1, root.2.display)), objects⟩ := by
  induction roots generalizing done with
  | nil => simpa using Takes.nil
  | cons root roots ih =>
    obtain ⟨hoperation, s, hs, hname⟩ := hroots root (List.mem_cons_self ..)
    have hrest := ih (fun other hother => hroots other (List.mem_cons_of_mem root hother))
      (done ++ [(root.1, s)])
    have hends : ∀ r, LineEnds r →
        NameEnds ((roots.flatMap fun root => lineText [indent ++ rootLine root]) ++ r) := by
      intro r hr
      rw [← lineText_flatMap]
      exact HeaderEnds.nameEnds (.inl (lineEnds_lineText _ hr))
    have hroot : Takes ⟨.root root.1, some done, objects⟩ _ LineEnds _ :=
      .name hname rfl hrest hends
    have hcolon : Takes ⟨.operation root.1, some done, objects⟩ _ LineEnds _ :=
      .mark (by decide : isMark ':' = true) rfl (.ignored (by decide : isIgnored ' ' = true) hroot)
    have hline : Takes ⟨.roots, some done, objects⟩ _ LineEnds _ :=
      .name hoperation rfl hcolon fun r _ => begins_cons (by decide) _
    have hall := Takes.ignored (by decide : isIgnored '\n' = true) (.blank indent_blank hline)
    simpa [rootLine, hs] using hall

theorem takes_rootBlock {w : Wording} {s : Schema} (hs : s.Worded w)
    (hroots : presentRoots s ≠ []) :
    Takes ⟨.start, none, []⟩ (rootBlock s).toList LineEnds
      ⟨.start, some ((presentRoots s).map fun root => (root.1, root.2.display)), []⟩ := by
  have hlines := takes_rootLines (fun root hroot => (isRootLine_of_present hs root hroot).2) [] []
  have hclose : Takes ⟨.roots, some ((presentRoots s).map fun root => (root.1, root.2.display)), []⟩
      ['\n', '\x7d'] LineEnds _ :=
    .ignored (by decide) (.mark (by decide) rfl .nil)
  have hbraces : Takes ⟨.schema, some [], []⟩ _ LineEnds _ :=
    .mark (by decide : isMark '\x7b' = true) rfl
      (hlines.append hclose fun r _ => ⟨'\n', _, rfl, rfl⟩)
  have hword : Takes ⟨.start, none, []⟩ _ LineEnds _ :=
    .name (by decide : isName "schema".toList = true) rfl
      (.ignored (by decide : isIgnored ' ' = true) hbraces) fun r _ => begins_cons (by decide) _
  have hne : (presentRoots s).isEmpty = false := by simpa using hroots
  rw [toList_rootBlock, braces, hne]
  exact hword

/-! ## The whole text -/

theorem lex_padded (text : String) : lex (padded text) = lex text.toList := by
  unfold padded
  split
  · next hempty =>
    rw [List.isEmpty_iff.mp hempty]
    exact lex_ignored (by decide) []
  · rw [lex_ignored (by decide), lex_ignored (by decide)]

theorem readRoots_of_takes {text : String} {result : Reading}
    (h : Takes ⟨.start, none, []⟩ (padded text) (fun _ => True) result)
    (hready : result.stage.isReady = true) :
    readRoots text = some (conventionalNames.map fun (operation, name) =>
      (operation, result.rootOf operation name)) := by
  obtain ⟨tokens, hlex, hrun⟩ := h
  have htokens : lex text.toList = some tokens := by
    have hall := hlex [] trivial
    rw [List.append_nil, lex_padded, lex] at hall
    simpa using hall
  simp only [readRoots, htokens, Option.bind_eq_bind, Option.bind_some, hrun, hready, if_true]

theorem presentRoots_ne_nil {s : Schema} (h : hasConventionalRoots s = false) :
    presentRoots s ≠ [] := by
  intro hnil
  have hnull : ∀ root ∈ s.roots, root.2.isNull = true := by
    intro root hroot
    simpa using List.filter_eq_nil_iff.mp hnil root hroot
  simp [Schema.roots] at hnull
  simp [hasConventionalRoots, isConventional, hnull] at h

/-- What the reader has when it comes to the end of the text of a schema. -/
def endReading (s : Schema) (stage : Stage) : Reading where
  stage := stage
  roots :=
    if hasConventionalRoots s then none
    else some ((presentRoots s).map fun root => (root.1, root.2.display))
  objects := s.types.flatMap objectName

theorem takes_schemaText {s : Schema} (hs : s.Worded .literal) :
    ∃ stage : Stage, stage.isReady = true ∧
      Takes ⟨.start, none, []⟩ (padded (schemaText s)) (fun _ => True) (endReading s stage) := by
  have hfeed : ∀ reading : Reading, Takes reading ['\n'] (fun _ => True) reading := fun _ =>
    .ignored (by decide) .nil
  have hends : ∀ r, LineEnds (['\n'] ++ r) := fun r => ⟨'\n', r, rfl, rfl⟩
  rw [padded_schemaText]
  cases hc : hasConventionalRoots s with
  | true =>
    obtain ⟨stage, hready, htypes⟩ := takes_types hs.types
      (show (Reading.mk .start none []).stage.isReady = true from rfl)
    refine ⟨stage, hready, ?_⟩
    have hall := htypes.append (hfeed _) fun r _ => hends r
    simpa [rootText, hc, endReading] using hall
  | false =>
    have hblock := takes_rootBlock hs (presentRoots_ne_nil hc)
    obtain ⟨stage, hready, htypes⟩ := takes_types hs.types (show (Reading.mk .start
      (some ((presentRoots s).map fun root => (root.1, root.2.display))) []).stage.isReady = true
      from rfl)
    refine ⟨stage, hready, ?_⟩
    have hrest := htypes.append (hfeed _) fun r _ => hends r
    have hall := Takes.ignored (by decide : isIgnored '\n' = true) (.ignored
      (by decide : isIgnored '\n' = true) (hblock.append hrest fun r _ => by
        rw [List.append_assoc]
        exact lineEnds_typesText s.types (hends r)))
    simpa [rootText, hc, endReading] using hall

/-! ## The roots that are told -/

def DeclaresObject (s : Schema) (name : String) : Prop :=
  ∃ t ∈ s.types, t.name = .str name ∧ ∃ interfaces fields, t.body = .object interfaces fields

theorem mem_objectNames {w : Wording} {s : Schema} (hs : s.Worded w) {name : String} :
    name ∈ s.types.flatMap objectName ↔ DeclaresObject s name := by
  rw [List.mem_flatMap]
  constructor
  · rintro ⟨t, ht, hname⟩
    obtain ⟨n, hn, -⟩ := (hs.types t ht).name
    cases hbody : t.body <;> simp only [objectName, hbody, List.mem_singleton, List.not_mem_nil] at hname
    case object interfaces fields =>
      rw [hname]
      exact ⟨t, ht, by rw [hn]; rfl, interfaces, fields, hbody⟩
  · rintro ⟨t, ht, hname, interfaces, fields, hbody⟩
    exact ⟨t, ht, by simp [objectName, hbody, hname]⟩

/-- Every root has the name of its operation, or there is none, as an object type has that name or
none has. Otherwise a schema has to name its roots. -/
def RootsUnderstood (s : Schema) : Prop :=
  ∀ root ∈ conventionalNames, (root.1, Value.str root.2) ∈ s.roots ↔ DeclaresObject s root.2

theorem lookup_map_display {roots : List (String × Value)} (hroots : ∀ root ∈ roots, IsNamed root.2)
    (operation : String) :
    (((roots.map fun root => (root.1, root.2.display)).lookup operation).map Value.str) =
      roots.lookup operation := by
  induction roots with
  | nil => rfl
  | cons root roots ih =>
    obtain ⟨key, v⟩ := root
    obtain ⟨s, hs, -⟩ := hroots _ (List.mem_cons_self ..)
    simp only at hs
    subst hs
    have hrest := ih fun other hother => hroots other (List.mem_cons_of_mem _ hother)
    cases hkey : operation == key <;> simp [List.lookup_cons, hkey, hrest]

theorem getD_present (v : Value) : (if v.isNull then none else some v).getD Value.null = v := by
  cases v <;> rfl

/-- The roots of a schema block are the roots of the schema. -/
theorem rootOf_unconventional {s : Schema} (hs : s.Worded .literal)
    (hc : hasConventionalRoots s = false) (stage : Stage) :
    (conventionalNames.map fun (operation, name) =>
      (operation, (endReading s stage).rootOf operation name)) = s.roots := by
  have hnamed : ∀ root ∈ presentRoots s, IsNamed root.2 := fun root hroot =>
    (isRootLine_of_present hs root hroot).2.2
  have hroot : ∀ operation name, (endReading s stage).rootOf operation name =
      ((presentRoots s).lookup operation).getD .null := by
    intro operation name
    rw [← lookup_map_display hnamed]
    simp [Reading.rootOf, endReading, hc]
  obtain ⟨hquery, hmutation, hsubscription⟩ := lookup_presentRoots s
  simp only [hroot, conventionalNames, List.map_cons, List.map_nil, hquery, hmutation,
    hsubscription, getD_present]
  rfl

theorem isConventional_cases {root : Value} (hroot : root = .null ∨ IsNamed root) {name : String}
    (h : isConventional root name = true) : root = .null ∨ root = .str name := by
  rcases hroot with hnull | ⟨s, rfl, -⟩
  · exact .inl hnull
  · have hs : s = name := by simpa [isConventional, Value.isNull] using h
    exact .inr (by rw [hs])

theorem eq_iff_of_conventional {root : Value} {name : String}
    (hroot : root = .null ∨ root = .str name) (p : Prop) [Decidable p] :
    (if p then Value.str name else .null) = root ↔ (root = .str name ↔ p) := by
  rcases hroot with rfl | rfl <;> by_cases hp : p <;> simp [hp]

/-- Without a schema block the object types tell the roots, and may tell them wrong. -/
theorem rootOf_conventional {s : Schema} (hs : s.Worded .literal)
    (hc : hasConventionalRoots s = true) (stage : Stage) :
    (conventionalNames.map fun (operation, name) =>
      (operation, (endReading s stage).rootOf operation name)) = s.roots ↔ RootsUnderstood s := by
  have hroot : ∀ operation name, (endReading s stage).rootOf operation name =
      if name ∈ s.types.flatMap objectName then .str name else .null := by
    intro operation name
    simp [Reading.rootOf, endReading, hc]
  simp only [hasConventionalRoots, Bool.and_eq_true] at hc
  have hquery := isConventional_cases (hs.roots ("query", s.query) (by simp [Schema.roots])) hc.1.1
  have hmutation := isConventional_cases
    (hs.roots ("mutation", s.mutation) (by simp [Schema.roots])) hc.1.2
  have hsubscription := isConventional_cases
    (hs.roots ("subscription", s.subscription) (by simp [Schema.roots])) hc.2
  simp only [hroot, conventionalNames, List.map_cons, List.map_nil, Schema.roots, List.cons.injEq,
    Prod.mk.injEq, true_and, and_true, RootsUnderstood, List.mem_cons, List.not_mem_nil,
    or_false, ← mem_objectNames hs]
  rw [eq_iff_of_conventional hquery, eq_iff_of_conventional hmutation,
    eq_iff_of_conventional hsubscription]
  simp [eq_comm]

/-- A schema whose default values are values of the language is printed, and its text is read. The
roots that are read are those of the schema exactly if it names them in a block or they are
understood. -/
theorem readRoots_print {s : Schema} (hs : s.Worded .literal) :
    ∃ text roots, print s = .ok text ∧ readRoots text = some roots ∧
      (roots = s.roots ↔ hasConventionalRoots s = false ∨ RootsUnderstood s) := by
  obtain ⟨stage, hready, htakes⟩ := takes_schemaText hs
  refine ⟨_, _, print_eq_ok hs, readRoots_of_takes htakes hready, ?_⟩
  cases hc : hasConventionalRoots s with
  | false => exact ⟨fun _ => .inl rfl, fun _ => rootOf_unconventional hs hc stage⟩
  | true =>
    rw [rootOf_conventional hs hc stage]
    simp

/-- A schema with a query root, and with an object type that is named like a root without being one. -/
def errandSchema : Schema where
  types := [
    { name := .str "Query", body := .object [] [
        { name := .str "latest", type := .named (.str "Mutation") }] },
    { name := .str "Mutation", body := .object [] [
        { name := .str "place", type := .named (.str "Text") }] },
    { name := .str "Text", body := .scalar }]
  query := .str "Query"

/-- What a server sends for it. -/
def errandAnswer : Value :=
  let field (name type : String) : Value := .object [("name", .str name), ("args", .list []),
    ("type", .object [("kind", .str "OBJECT"), ("name", .str type)])]
  let object (name : String) (fields : List Value) : Value := .object [("kind", .str "OBJECT"),
    ("name", .str name), ("interfaces", .list []), ("fields", .list fields)]
  .object [("__schema", .object [
    ("queryType", .object [("name", .str "Query")]),
    ("mutationType", .null),
    ("subscriptionType", .null),
    ("types", .list [
      object "Query" [field "latest" "Mutation"],
      object "Mutation" [field "place" "Text"],
      .object [("kind", .str "SCALAR"), ("name", .str "Text")]])])]

theorem errandSchema_worded : errandSchema.Worded .literal := by
  have hname : ∀ {s : String}, isName s.toList = true → IsNamed (.str s) := fun h => ⟨_, rfl, h⟩
  have hfield : ∀ {name type : String}, isName name.toList = true → isName type.toList = true →
      ∀ f ∈ [({ name := .str name, type := .named (.str type) } : Field)], f.Worded .literal := by
    intro name type hn ht f hf
    obtain rfl := List.mem_singleton.mp hf
    exact ⟨hname hn, hname ht, trivial, by simp, trivial⟩
  refine ⟨fun t ht => ?_, fun root hroot => ?_⟩
  · simp only [errandSchema, List.mem_cons, List.not_mem_nil, or_false] at ht
    rcases ht with rfl | rfl | rfl
    · exact ⟨hname (by decide), trivial, by simp, hfield (by decide) (by decide)⟩
    · exact ⟨hname (by decide), trivial, by simp, hfield (by decide) (by decide)⟩
    · exact ⟨hname (by decide), trivial, trivial⟩
  · simp only [errandSchema, Schema.roots, List.mem_cons, List.not_mem_nil, or_false] at hroot
    rcases hroot with rfl | rfl | rfl
    · exact .inr (hname (by decide))
    · exact .inl rfl
    · exact .inl rfl

/-- The object type is taken for the mutation root that the schema does not have. -/
theorem readRoots_print_errands :
    Introspection.build errandAnswer = .ok errandSchema ∧ errandSchema.Worded .literal ∧
      ∃ text roots, print errandSchema = .ok text ∧ readRoots text = some roots ∧
        roots ≠ errandSchema.roots := by
  obtain ⟨text, roots, hprint, hread, hiff⟩ := readRoots_print errandSchema_worded
  refine ⟨rfl, errandSchema_worded, text, roots, hprint, hread, fun hsame => ?_⟩
  rcases hiff.mp hsame with hblock | hunderstood
  · exact absurd hblock (by simp [hasConventionalRoots, isConventional, errandSchema, Value.isNull])
  · have hdeclared : DeclaresObject errandSchema "Mutation" :=
      ⟨_, List.mem_cons_of_mem _ (List.mem_cons_self ..), rfl, _, _, rfl⟩
    have hroot := (hunderstood ("mutation", "Mutation") (by decide)).mpr hdeclared
    simp [errandSchema, Schema.roots] at hroot

end SchemaScribe.Sdl
