import SchemaScribe.Proofs.Introspection.References
import Mathlib.Tactic.FinCases

/-! # The answer of a server

What a server says of a schema when it is introspected: an object for each type in order with every
member that is asked for, null where the kind has none, and among them the objects of the
introspection system. A schema is built from the answer as it was.
-/
namespace SchemaScribe
open Introspection Success

/-! ## Answers -/

def TypeRef.answer (kindOf : Value → Value) : TypeRef → Value
  | .named name => .object [("kind", kindOf name), ("name", name), ("ofType", .null)]
  | .list item =>
    .object [("kind", .str "LIST"), ("name", .null), ("ofType", item.answer kindOf)]
  | .nonNull item =>
    .object [("kind", .str "NON_NULL"), ("name", .null), ("ofType", item.answer kindOf)]

def InputValue.answer (kindOf : Value → Value) (value : InputValue) : Value :=
  .object [("name", value.name), ("description", value.description),
    ("type", value.type.answer kindOf), ("defaultValue", value.defaultValue)]

def Field.answer (kindOf : Value → Value) (field : Field) : Value :=
  .object [("name", field.name), ("description", field.description),
    ("args", .list (field.arguments.map (InputValue.answer kindOf))),
    ("type", field.type.answer kindOf), ("isDeprecated", .bool field.deprecated),
    ("deprecationReason", field.reason)]

def EnumValue.answer (value : EnumValue) : Value :=
  .object [("name", value.name), ("description", value.description),
    ("isDeprecated", .bool value.deprecated), ("deprecationReason", value.reason)]

namespace Schema
variable (schema : Schema)

def kindOf (name : Value) : Value :=
  match schema.find? name with
  | some type => .str type.body.kindWord
  | none => .null

/-- The object types that list the interface of that name. -/
def implementers (name : Value) : List Value :=
  (schema.types.filter fun type =>
    match type.body with
    | .object interfaces _ => interfaces.any (·.same name)
    | _ => false).map (·.name)

def namesAnswer (names : List Value) : Value :=
  .list (names.map fun name => (TypeRef.named name).answer schema.kindOf)

/-- The lists of members that are asked of every type; a kind answers with null to the others. -/
def membersAnswer (type : TypeDef) : List (String × Value) :=
  match type.body with
  | .scalar => [("fields", .null), ("inputFields", .null), ("interfaces", .null),
      ("enumValues", .null), ("possibleTypes", .null)]
  | .object interfaces fields =>
    [("fields", .list (fields.map (Field.answer schema.kindOf))), ("inputFields", .null),
      ("interfaces", schema.namesAnswer interfaces), ("enumValues", .null),
      ("possibleTypes", .null)]
  | .interface interfaces fields =>
    [("fields", .list (fields.map (Field.answer schema.kindOf))), ("inputFields", .null),
      ("interfaces", schema.namesAnswer interfaces), ("enumValues", .null),
      ("possibleTypes", schema.namesAnswer (schema.implementers type.name))]
  | .union members => [("fields", .null), ("inputFields", .null), ("interfaces", .null),
      ("enumValues", .null), ("possibleTypes", schema.namesAnswer members)]
  | .enum values => [("fields", .null), ("inputFields", .null), ("interfaces", .null),
      ("enumValues", .list (values.map EnumValue.answer)), ("possibleTypes", .null)]
  | .inputObject fields =>
    [("fields", .null), ("inputFields", .list (fields.map (InputValue.answer schema.kindOf))),
      ("interfaces", .null), ("enumValues", .null), ("possibleTypes", .null)]

def typeAnswer (type : TypeDef) : Value :=
  .object ([("kind", .str type.body.kindWord), ("name", type.name),
    ("description", type.description)] ++ schema.membersAnswer type)

def rootAnswer (root : Value) : Value :=
  match root with
  | .null => .null
  | name => .object [("name", name)]

def rootsAndTypes (entries : List Value) (directives : Value) : Value :=
  .object [("queryType", rootAnswer schema.query), ("mutationType", rootAnswer schema.mutation),
    ("subscriptionType", rootAnswer schema.subscription), ("types", .list entries),
    ("directives", directives)]

/-- The answer with those entries in its list of types and anything for the directives. -/
def answer (entries : List Value) (directives : Value) : Value :=
  .object [("__schema", schema.rootsAndTypes entries directives)]

end Schema

/-! ## Well-formed schemas -/

/-- A reference that an introspection query can spell out and that is a type. -/
structure TypeRef.WellFormed (type : TypeRef) : Prop where
  shallow : type.depth ≤ maxLevels - 1
  nested : type.WellNested

structure InputValue.WellFormed (value : InputValue) : Prop where
  name : ∃ text, value.name = .str text
  type : value.type.WellFormed

structure Field.WellFormed (field : Field) : Prop where
  name : ∃ text, field.name = .str text
  type : field.type.WellFormed
  arguments : ∀ argument ∈ field.arguments, argument.WellFormed

def TypeBody.WellFormed : TypeBody → Prop
  | .scalar | .union _ => True
  | .object _ fields | .interface _ fields => ∀ field ∈ fields, field.WellFormed
  | .enum values => ∀ value ∈ values, ∃ text, value.name = .str text
  | .inputObject fields => ∀ field ∈ fields, field.WellFormed

/-- The types have names of their own outside the introspection system, and every name that stands
in the schema is one of them. Descriptions, default values and reasons may be anything. -/
structure Schema.WellFormed (schema : Schema) : Prop where
  named : ∀ type ∈ schema.types, ∃ text, type.name = .str text ∧ isMetaName text = false
  distinct : (schema.types.map (·.name)).Nodup
  resolved : ∀ name, schema.Mentions name → ∃ type ∈ schema.types, type.name = name
  members : ∀ type ∈ schema.types, type.body.WellFormed

/-! ## Building from an answer -/

namespace Schema.WellFormed
variable {schema : Schema} (wf : schema.WellFormed)
include wf

theorem kindOf_eq {name : Value} (hm : schema.Mentions name) :
    ∃ body : TypeBody, schema.kindOf name = .str body.kindWord := by
  obtain ⟨type, ht, rfl⟩ := wf.resolved name hm
  obtain ⟨text, hn, -⟩ := wf.named type ht
  obtain ⟨found, hf⟩ : ∃ found, schema.find? type.name = some found := by
    rw [← Option.isSome_iff_exists, Schema.find?, List.find?_isSome]
    exact ⟨type, ht, by simp [hn]⟩
  exact ⟨found.body, by simp [Schema.kindOf, hf]⟩

theorem isText {name : Value} (hm : schema.Mentions name) : ∃ text, name = .str text := by
  obtain ⟨type, ht, rfl⟩ := wf.resolved name hm
  exact (wf.named type ht).imp fun _ h => h.1

theorem has_name {name : Value} (hm : schema.Mentions name) :
    ((TypeRef.named name).answer schema.kindOf).Has "name" name := by
  obtain ⟨text, rfl⟩ := wf.isText hm
  exact ⟨rfl, by simp [TypeRef.answer, List.lookup_cons], by simp⟩

theorem spelled {type : TypeRef} (hm : schema.Mentions type.innermost) :
    type.SpelledBy (type.answer schema.kindOf) := by
  induction type with
  | named name =>
    obtain ⟨body, hb⟩ := wf.kindOf_eq hm
    refine ⟨⟨.str body.kindWord, ⟨rfl, ?_, by simp⟩, rfl, ?_, ?_⟩, wf.has_name hm⟩
    · simpa [TypeRef.answer] using hb
    · cases body <;> simp [TypeBody.kindWord]
    · cases body <;> simp [TypeBody.kindWord]
  | list item ih | nonNull item ih =>
    refine ⟨⟨rfl, by simp [TypeRef.answer], by simp⟩, ?_⟩
    simpa [TypeRef.answer, List.lookup_cons] using ih hm

theorem typeRef_describedBy {type : TypeRef} (ht : type.WellFormed)
    (hm : schema.Mentions type.innermost) : type.DescribedBy (type.answer schema.kindOf) :=
  ⟨wf.spelled hm, Nat.lt_of_le_of_lt ht.shallow (by decide), ht.nested⟩

theorem inputValue_describedBy {value : InputValue} (hv : value.WellFormed)
    (hm : schema.Mentions value.type.innermost) :
    value.DescribedBy (value.answer schema.kindOf) := by
  obtain ⟨text, hn⟩ := hv.name
  refine ⟨⟨rfl, by simp [InputValue.answer], by simp [hn]⟩, ?_, ?_, ?_⟩
  · simpa [InputValue.answer, List.lookup_cons] using wf.typeRef_describedBy hv.type hm
  · simp [InputValue.answer, List.lookup_cons]
  · simp [InputValue.answer, List.lookup_cons]

theorem field_describedBy {field : Field} (hf : field.WellFormed)
    (hm : ∀ name, field.Mentions name → schema.Mentions name) :
    field.DescribedBy (field.answer schema.kindOf) := by
  obtain ⟨text, hn⟩ := hf.name
  refine ⟨⟨rfl, by simp [Field.answer], by simp [hn]⟩, ?_, ?_, ?_, ?_, ?_⟩
  · simpa [Field.answer, List.lookup_cons] using wf.typeRef_describedBy hf.type (hm _ .type)
  · simp [Field.answer, List.lookup_cons]
  · refine ⟨field.arguments.map (InputValue.answer schema.kindOf),
      ⟨rfl, .inl (by simp [Field.answer, List.lookup_cons])⟩, forall₂_map fun argument ha => ?_⟩
    exact wf.inputValue_describedBy (hf.arguments argument ha) (hm _ (.argument ha))
  · simp [Field.answer, List.lookup_cons, Value.truthy]
  · simp [Field.answer, List.lookup_cons]

theorem namesListed {names : List Value} {key : String} {data : Value}
    (hm : ∀ name ∈ names, schema.Mentions name) (hobject : data.isDict = true)
    (hdata : data.member key = schema.namesAnswer names) : NamesListed names key data := by
  refine ⟨_, ⟨hobject, .inl hdata⟩, forall₂_map fun name hn => ?_⟩
  exact wf.has_name (hm name hn)

theorem fieldsListed {fields : List Field} {data : Value} (hf : ∀ field ∈ fields, field.WellFormed)
    (hm : ∀ field ∈ fields, ∀ name, field.Mentions name → schema.Mentions name)
    (hobject : data.isDict = true)
    (hdata : data.member "fields" = .list (fields.map (Field.answer schema.kindOf))) :
    FieldsListed fields data := by
  refine ⟨_, ⟨hobject, .inl hdata⟩, forall₂_map fun field hin => ?_⟩
  exact wf.field_describedBy (hf field hin) (hm field hin)

theorem body_describedBy {type : TypeDef} (ht : type ∈ schema.types) :
    type.body.DescribedBy (schema.typeAnswer type) := by
  have hm : ∀ name, type.body.Mentions name → schema.Mentions name := fun _ h => .inType ht h
  have hwf := wf.members type ht
  have hmember : ∀ key, (schema.typeAnswer type).member key =
      ((([("kind", .str type.body.kindWord), ("name", type.name),
        ("description", type.description)] : List (String × Value)) ++
        schema.membersAnswer type).lookup key).getD .null := fun key => Value.member_object key _
  cases hb : type.body with
  | scalar => trivial
  | object interfaces fields =>
    rw [hb] at hm hwf
    refine ⟨wf.namesListed (fun name hn => hm name (.interfaceOfObject hn)) rfl ?_,
      wf.fieldsListed hwf (fun field hf name hn => hm name (.fieldOfObject hf hn)) rfl ?_⟩
    · simp [hmember, Schema.membersAnswer, hb, List.lookup_cons]
    · simp [hmember, Schema.membersAnswer, hb, List.lookup_cons]
  | interface interfaces fields =>
    rw [hb] at hm hwf
    refine ⟨wf.namesListed (fun name hn => hm name (.interfaceOfInterface hn)) rfl ?_,
      wf.fieldsListed hwf (fun field hf name hn => hm name (.fieldOfInterface hf hn)) rfl ?_⟩
    · simp [hmember, Schema.membersAnswer, hb, List.lookup_cons]
    · simp [hmember, Schema.membersAnswer, hb, List.lookup_cons]
  | union members =>
    rw [hb] at hm
    refine wf.namesListed (fun name hn => hm name (.member hn)) rfl ?_
    simp [hmember, Schema.membersAnswer, hb, List.lookup_cons]
  | enum values =>
    rw [hb] at hwf
    refine ⟨values.map EnumValue.answer,
      ⟨rfl, .inl (by simp [hmember, Schema.membersAnswer, hb, List.lookup_cons])⟩,
      forall₂_map fun value hv => ?_⟩
    obtain ⟨text, hn⟩ := hwf value hv
    exact ⟨⟨rfl, by simp [EnumValue.answer], by simp [hn]⟩,
      by simp [EnumValue.answer, List.lookup_cons],
      by simp [EnumValue.answer, List.lookup_cons, Value.truthy],
      by simp [EnumValue.answer, List.lookup_cons]⟩
  | inputObject fields =>
    rw [hb] at hm hwf
    refine ⟨fields.map (InputValue.answer schema.kindOf),
      ⟨rfl, .inl (by simp [hmember, Schema.membersAnswer, hb, List.lookup_cons])⟩,
      forall₂_map fun field hf => ?_⟩
    exact wf.inputValue_describedBy (hwf field hf) (hm _ (.inputField hf))

theorem typeDef_describedBy {type : TypeDef} (ht : type ∈ schema.types) :
    type.DescribedBy (schema.typeAnswer type) := by
  obtain ⟨text, hn, -⟩ := wf.named type ht
  refine ⟨⟨rfl, ?_, by simp⟩, ⟨rfl, ?_, by simp [hn]⟩, ?_, wf.body_describedBy ht⟩
  · simp [Schema.typeAnswer]
  · simp [Schema.typeAnswer, List.lookup_cons]
  · simp [Schema.typeAnswer, List.lookup_cons]

end Schema.WellFormed

/-! ## Entries of the introspection system -/

/-- Two lists merged into one, each in its order. -/
inductive Merged {α : Type} : List α → List α → List α → Prop
  | nil : Merged [] [] []
  | left {x : α} {xs ys zs : List α} : Merged xs ys zs → Merged (x :: xs) ys (x :: zs)
  | right {y : α} {xs ys zs : List α} : Merged xs ys zs → Merged xs (y :: ys) (y :: zs)

theorem Merged.perm {α : Type} {xs ys zs : List α} (h : Merged xs ys zs) : zs.Perm (xs ++ ys) := by
  induction h with
  | nil => exact .refl _
  | left _ ih => exact ih.cons _
  | right _ ih => exact (ih.cons _).trans List.perm_middle.symm

theorem Merged.filter_eq {α : Type} {p : α → Bool} {xs ys zs : List α} (h : Merged xs ys zs)
    (hx : ∀ x ∈ xs, p x = true) (hy : ∀ y ∈ ys, p y = false) : zs.filter p = xs := by
  induction h with
  | nil => rfl
  | left _ ih =>
    rw [List.filter_cons, if_pos (hx _ (List.mem_cons_self ..)),
      ih (fun x h => hx x (List.mem_cons_of_mem _ h)) hy]
  | right _ ih =>
    rw [List.filter_cons, hy _ (List.mem_cons_self ..), if_neg Bool.false_ne_true,
      ih hx fun y h => hy y (List.mem_cons_of_mem _ h)]

namespace Introspection

/-- An entry of the introspection system is known by its name alone. -/
structure IsMetaEntry (data : Value) : Prop where
  kind : ∃ kind, data.Has "kind" kind
  name : ∃ text, data.Has "name" (.str text) ∧ isMetaName text = true

theorem IsMetaEntry.isDeclared_eq {data : Value} (h : IsMetaEntry data) :
    isDeclared data = false := by
  obtain ⟨text, hn, hm⟩ := h.name
  simp [isDeclared, entryName, hn.found, Value.front?, hm]

section Built
variable {schema : Schema} (wf : schema.WellFormed) {metas entries : List Value}
  (hmeta : ∀ data ∈ metas, IsMetaEntry data) (hdistinct : (metas.map entryName).Nodup)
  (hmerged : Merged (schema.types.map schema.typeAnswer) metas entries)

theorem entryName_typeAnswer (schema : Schema) (type : TypeDef) :
    entryName (schema.typeAnswer type) = type.name := by
  simp [entryName, Schema.typeAnswer, List.lookup_cons]

include wf in
theorem isDeclared_typeAnswer {type : TypeDef} (ht : type ∈ schema.types) :
    isDeclared (schema.typeAnswer type) = true := by
  obtain ⟨text, hn, hm⟩ := wf.named type ht
  simp [isDeclared, entryName_typeAnswer, hn, Value.front?, hm]

include wf hmeta hdistinct hmerged in
theorem nodup_entries : (entries.map entryName).Nodup := by
  have hperm := hmerged.perm.map entryName
  rw [hperm.nodup_iff, List.map_append, List.map_map]
  have hnames : entryName ∘ schema.typeAnswer = (·.name) :=
    funext fun type => entryName_typeAnswer schema type
  rw [hnames, List.nodup_append]
  refine ⟨wf.distinct, hdistinct, fun name hn other ho => ?_⟩
  obtain ⟨type, ht, rfl⟩ := List.mem_map.mp hn
  obtain ⟨data, hd, rfl⟩ := List.mem_map.mp ho
  obtain ⟨text, htext, hplain⟩ := wf.named type ht
  obtain ⟨word, hword, hm⟩ := (hmeta data hd).name
  rw [htext, entryName, hword.found]
  rintro ⟨⟩
  simp [hplain] at hm

include wf hmeta hmerged in
theorem isEntry_of_mem {data : Value} (hd : data ∈ entries) : IsEntry data := by
  rcases List.mem_append.mp (hmerged.perm.mem_iff.mp hd) with h | h
  · obtain ⟨type, ht, rfl⟩ := List.mem_map.mp h
    have hdesc := wf.typeDef_describedBy ht
    obtain ⟨text, hn, -⟩ := wf.named type ht
    exact ⟨⟨_, hdesc.kind⟩, .str text, rfl, hn ▸ hdesc.name⟩
  · obtain ⟨text, hn, -⟩ := (hmeta data h).name
    exact ⟨(hmeta data h).kind, .str text, rfl, hn⟩

theorem rootNamed_of_answer {data root : Value} {key : String}
    (h : data.member key = Schema.rootAnswer root) : RootNamed data key root := by
  cases root with
  | null => exact .missing h
  | _ => exact .named (h ▸ ⟨rfl, by simp [Schema.rootAnswer], by simp⟩)

end Built

/-- A schema that is well formed is built from the answer that a server gives of it, wherever the
entries of the introspection system stand, and from the response that has the answer as its data. -/
theorem build_answer {schema : Schema} (wf : schema.WellFormed) {metas entries : List Value}
    (hmeta : ∀ data ∈ metas, IsMetaEntry data) (hdistinct : (metas.map entryName).Nodup)
    (hmerged : Merged (schema.types.map schema.typeAnswer) metas entries) (directives : Value) :
    build (schema.answer entries directives) = .ok schema ∧
      build (.object [("data", schema.answer entries directives)]) = .ok schema := by
  have hfilter : entries.filter isDeclared = schema.types.map schema.typeAnswer :=
    hmerged.filter_eq
      (fun data hd => by
        obtain ⟨type, ht, rfl⟩ := List.mem_map.mp hd
        exact isDeclared_typeAnswer wf ht)
      fun data hd => (hmeta data hd).isDeclared_eq
  have hdesc : List.Forall₂ TypeDef.DescribedBy schema.types (entries.filter isDeclared) := by
    rw [hfilter]
    exact forall₂_map fun type ht => wf.typeDef_describedBy ht
  have hknown : ∀ name, schema.Mentions name → name ∈ entries.map entryName := by
    intro name hm
    obtain ⟨type, ht, rfl⟩ := wf.resolved name hm
    have hin : schema.typeAnswer type ∈ entries :=
      hmerged.perm.mem_iff.mpr (List.mem_append_left _ (List.mem_map.mpr ⟨type, ht, rfl⟩))
    exact List.mem_map.mpr ⟨_, hin, entryName_typeAnswer schema type⟩
  have hbuild : ∀ result, Envelope result (schema.rootsAndTypes entries directives) →
      build result = .ok schema := by
    intro result henv
    refine build_eq_ok.mpr ⟨entries, ⟨⟨_, henv, ⟨rfl, ?_, by simp⟩, ?_, ?_, ?_⟩, ?_, ?_, hdesc⟩,
      hknown⟩
    · simp [Schema.rootsAndTypes, List.lookup_cons]
    · exact rootNamed_of_answer (by simp [Schema.rootsAndTypes])
    · exact rootNamed_of_answer (by simp [Schema.rootsAndTypes, List.lookup_cons])
    · exact rootNamed_of_answer (by simp [Schema.rootsAndTypes, List.lookup_cons])
    · exact fun data hd => isEntry_of_mem wf hmeta hmerged hd
    · exact nodup_entries wf hmeta hdistinct hmerged
  exact ⟨hbuild _ (.bare rfl), hbuild _ (.response rfl rfl rfl)⟩

/-- A schema with a reference of three modifiers and an argument. -/
def searchSchema : Schema where
  types := [
    { name := .str "Query", description := .str "All.", body := .object [] [
        { name := .str "find", type := .nonNull (.list (.nonNull (.named (.str "Text")))),
          arguments := [{ name := .str "start", type := .named (.str "Text"),
                          defaultValue := .str "\"\"" }],
          deprecated := true, reason := .str "Slow" }] },
    { name := .str "Text", body := .scalar }]
  query := .str "Query"

theorem searchSchema_wellFormed : searchSchema.WellFormed where
  named := by
    intro type ht
    fin_cases ht
    · exact ⟨"Query", rfl, rfl⟩
    · exact ⟨"Text", rfl, rfl⟩
  distinct := by simp [searchSchema]
  resolved := by
    intro name hm
    have hin : name ∈ [Value.str "Query", .str "Text"] := by
      cases hm with
      | inType ht hb =>
        have href := TypeBody.mem_references_iff.mpr hb
        fin_cases ht <;> simp_all [TypeBody.references, Field.references]
      | asRoot hr hn => simp_all [searchSchema]
    simpa [searchSchema, eq_comm] using hin
  members := by
    intro type ht
    fin_cases ht
    · intro field hf
      obtain rfl := List.mem_singleton.mp hf
      refine ⟨⟨_, rfl⟩, ⟨by decide, ⟨rfl, rfl, trivial⟩⟩, fun argument ha => ?_⟩
      obtain rfl := List.mem_singleton.mp ha
      exact ⟨⟨_, rfl⟩, ⟨by decide, trivial⟩⟩
    · trivial

def metaEntry : Value := .object [("kind", .str "OBJECT"), ("name", .str "__Type")]

theorem build_answer_searchSchema :
    build (searchSchema.answer
      [searchSchema.typeAnswer searchSchema.types[0], metaEntry,
        searchSchema.typeAnswer searchSchema.types[1]] .null) = .ok searchSchema := by
  have hmeta : ∀ data ∈ [metaEntry], IsMetaEntry data := by
    intro data hd
    rw [List.mem_singleton.mp hd]
    exact ⟨⟨.str "OBJECT", rfl, rfl, by simp⟩, "__Type", ⟨rfl, rfl, by simp⟩, rfl⟩
  exact (build_answer searchSchema_wellFormed hmeta (by simp) (.left (.right (.left .nil))) .null).1

end Introspection
end SchemaScribe
