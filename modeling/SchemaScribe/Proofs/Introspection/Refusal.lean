import SchemaScribe.Proofs.Introspection.References
import SchemaScribe.Sdl.Printer

/-! # Refusals of introspection results

A document may be malformed in any way at any depth. As long as every kind and every name in it is
a text, null or missing, it is either built or refused for a reason that is told, and a schema that
is built from it can be printed.
-/
namespace SchemaScribe
open Introspection Success

/-! ## Labels -/

namespace Value

/-- The values that a document is made of: itself, and what is inside the items of its lists and
the members of its objects. -/
inductive Inside : Value → Value → Prop
  | whole {v : Value} : Inside v v
  | item {v item : Value} {items : List Value} : item ∈ items → Inside v item →
      Inside v (.list items)
  | member {v key value : Value} {entries : Entries} : (key, value) ∈ entries → Inside v value →
      Inside v (.dict entries)

/-- Every kind and every name in the document, at any depth, is null or a text. -/
def Labelled (doc : Value) : Prop :=
  ∀ entries, (dict entries).Inside doc → ∀ key ∈ ["kind", "name"], ∀ label,
    (str key, label) ∈ entries → label = .null ∨ label.isString = true

theorem mem_of_lookup {key : String} {entries : Entries} {value : Value}
    (h : lookup key entries = some value) : (str key, value) ∈ entries := by
  induction entries with
  | nil => simp [lookup] at h
  | cons entry entries ih =>
    obtain ⟨k, v⟩ := entry
    cases k with
    | str name =>
      rw [lookup] at h
      split at h
      · next hname =>
        cases h
        exact hname ▸ List.mem_cons_self ..
      · exact List.mem_cons_of_mem _ (ih h)
    | _ =>
      rw [lookup] at h
      · exact List.mem_cons_of_mem _ (ih h)
      · simp

namespace Inside
variable {u v w doc item : Value} {key : String} {items : List Value}

theorem trans (h : u.Inside v) (hv : v.Inside w) : u.Inside w := by
  induction hv with
  | whole => exact h
  | item hi _ ih => exact .item hi ih
  | member he _ ih => exact .member he ih

theorem of_lookup {entries : Entries} (h : lookup key entries = some v) : v.Inside (.dict entries) :=
  .member (mem_of_lookup h) .whole

/-- What is found under a key is null, or it is inside. -/
theorem of_member (doc : Value) (key : String) :
    doc.member key = .null ∨ (doc.member key).Inside doc := by
  cases doc with
  | dict entries =>
    rw [Value.member]
    cases h : lookup key entries with
    | none => exact .inl rfl
    | some value => exact .inr (.of_lookup h)
  | _ => exact .inl rfl

theorem of_has (h : doc.Has key v) : v.Inside doc := by
  rcases of_member doc key with hm | hm
  · exact absurd (h.found.symm.trans hm) h.present
  · exact h.found ▸ hm

theorem of_lists (h : doc.Lists key items) (hi : item ∈ items) : item.Inside doc := by
  rcases h.found with hf | ⟨-, rfl⟩
  · rcases of_member doc key with hm | hm
    · cases hm.symm.trans hf
    · exact (Inside.item hi .whole).trans (hf ▸ hm)
  · simp at hi

end Inside

namespace Labelled

theorem null : Labelled .null := by
  intro entries h
  cases h

theorem inside {doc part : Value} (h : doc.Labelled) (hp : part.Inside doc) : part.Labelled :=
  fun entries hin => h entries (hin.trans hp)

theorem member {doc : Value} (h : doc.Labelled) (key : String) : (doc.member key).Labelled := by
  rcases Inside.of_member doc key with hm | hm
  · exact hm ▸ null
  · exact h.inside hm

theorem of_lists {doc : Value} (h : doc.Labelled) {key : String} {items : List Value}
    (hl : doc.Lists key items) {item : Value} (hi : item ∈ items) : item.Labelled :=
  h.inside (.of_lists hl hi)

/-- A kind or a name that is there is a text. -/
theorem isString_of_has {doc label : Value} (h : doc.Labelled) {key : String}
    (hh : doc.Has key label) (hkey : key ∈ ["kind", "name"]) : label.isString = true := by
  have hobject := hh.isObject
  cases doc with
  | dict entries =>
    have hf : (lookup key entries).getD .null = label := hh.found
    cases hl : lookup key entries with
    | none => exact absurd (by simpa [hl] using hf.symm) hh.present
    | some value =>
      rw [hl, Option.getD_some] at hf
      subst hf
      exact (h entries .whole key hkey value (mem_of_lookup hl)).resolve_left hh.present
  | _ => cases hobject

theorem isString_name {doc name : Value} (h : doc.Labelled) (hn : doc.Has "name" name) :
    name.isString = true :=
  h.isString_of_has hn (by simp)

end Labelled

theorem labelled_leaf {v : Value} (hlist : ∀ items, v ≠ .list items)
    (hdict : ∀ entries, v ≠ .dict entries) : v.Labelled := by
  intro entries h
  cases h with
  | whole => exact absurd rfl (hdict entries)
  | item _ _ => exact absurd rfl (hlist _)
  | member _ _ => exact absurd rfl (hdict _)

theorem labelled_list {items : List Value} :
    Labelled (.list items) ↔ ∀ item ∈ items, item.Labelled := by
  constructor
  · intro h item hi
    exact h.inside (.item hi .whole)
  · intro h entries hin
    cases hin with
    | item hi hin => exact h _ hi entries hin

theorem labelled_object {members : List (String × Value)} :
    Labelled (.object members) ↔ ∀ member ∈ members,
      (member.1 ∈ ["kind", "name"] → member.2 = .null ∨ member.2.isString = true) ∧
        member.2.Labelled := by
  constructor
  · intro h member hm
    have hentry : (str member.1, member.2) ∈ members.map fun member => (str member.1, member.2) :=
      List.mem_map.mpr ⟨member, hm, rfl⟩
    exact ⟨fun hkey => h _ .whole member.1 hkey member.2 hentry, h.inside (.member hentry .whole)⟩
  · intro h entries hin
    rw [object] at hin
    cases hin with
    | whole =>
      intro key hkey label hlabel
      obtain ⟨member, hm, hlabel⟩ := List.mem_map.mp hlabel
      cases hlabel
      exact (h member hm).1 hkey
    | member he hin =>
      obtain ⟨member, hm, he⟩ := List.mem_map.mp he
      cases he
      exact (h member hm).2 entries hin

end Value

/-! ## Names in what is described -/

theorem TypeRef.SpelledBy.isString {type : TypeRef} {data : Value} (h : type.SpelledBy data)
    (hl : data.Labelled) : type.innermost.isString = true := by
  induction type generalizing data with
  | named name => exact hl.isString_name h.2
  | list item ih | nonNull item ih => exact ih h.2 (hl.member "ofType")

theorem InputValue.DescribedBy.isString {value : InputValue} {data : Value}
    (h : value.DescribedBy data) (hl : data.Labelled) :
    value.type.innermost.isString = true :=
  h.type.spelled.isString (hl.member "type")

theorem Field.DescribedBy.isString {field : Field} {data : Value} (h : field.DescribedBy data)
    (hl : data.Labelled) {name : Value} (hm : field.Mentions name) : name.isString = true := by
  cases hm with
  | type => exact h.type.spelled.isString (hl.member "type")
  | argument ha =>
    obtain ⟨items, hlist, hargs⟩ := h.arguments
    obtain ⟨item, hi, hdesc⟩ := exists_item_of_forall₂ hargs ha
    exact hdesc.isString (hl.of_lists hlist hi)

theorem NamesListed.isString {names : List Value} {key : String} {data : Value}
    (h : NamesListed names key data) (hl : data.Labelled) {name : Value} (hn : name ∈ names) :
    name.isString = true := by
  obtain ⟨items, hlist, hnames⟩ := h
  obtain ⟨item, hi, hhas⟩ := exists_item_of_forall₂ hnames hn
  exact (hl.of_lists hlist hi).isString_name hhas

theorem FieldsListed.isString {fields : List Field} {data : Value} (h : FieldsListed fields data)
    (hl : data.Labelled) {field : Field} (hf : field ∈ fields) {name : Value}
    (hm : field.Mentions name) : name.isString = true := by
  obtain ⟨items, hlist, hfields⟩ := h
  obtain ⟨item, hi, hdesc⟩ := exists_item_of_forall₂ hfields hf
  exact hdesc.isString (hl.of_lists hlist hi) hm

theorem TypeBody.DescribedBy.isString {body : TypeBody} {data : Value} (h : body.DescribedBy data)
    (hl : data.Labelled) {name : Value} (hm : body.Mentions name) : name.isString = true := by
  cases hm with
  | interfaceOfObject hn | interfaceOfInterface hn => exact h.1.isString hl hn
  | fieldOfObject hf hn | fieldOfInterface hf hn => exact h.2.isString hl hf hn
  | member hn => exact NamesListed.isString h hl hn
  | inputField hf =>
    obtain ⟨items, hlist, hfields⟩ := h
    obtain ⟨item, hi, hdesc⟩ := exists_item_of_forall₂ hfields hf
    exact hdesc.isString (hl.of_lists hlist hi)

/-- The names that are put together when a type is printed are texts. -/
theorem TypeBody.DescribedBy.isString_joinedNames {body : TypeBody} {data : Value}
    (h : body.DescribedBy data) (hl : data.Labelled) :
    ∀ name ∈ Sdl.joinedNames body, name.isString = true := by
  intro name hn
  cases body with
  | scalar | inputObject fields => simp [Sdl.joinedNames] at hn
  | object interfaces fields => exact h.isString hl (.interfaceOfObject hn)
  | interface interfaces fields => exact h.isString hl (.interfaceOfInterface hn)
  | union members => exact h.isString hl (.member hn)
  | enum values =>
    obtain ⟨value, hv, rfl⟩ := List.mem_map.mp hn
    obtain ⟨items, hlist, hvalues⟩ := h
    obtain ⟨item, hi, hdesc⟩ := exists_item_of_forall₂ hvalues hv
    exact (hl.of_lists hlist hi).isString_name hdesc.name

namespace Introspection

/-! ## Orderly computations -/

/-- A computation that fails, if at all, for a reason that is told. -/
structure Orderly {α : Type} (x : Except BuildFault α) : Prop where
  told : ∀ fault, x = .error fault → ∃ reason, fault = .malformed reason

namespace Orderly
variable {α β : Type}

theorem ok (a : α) : Orderly (.ok a) := by
  constructor
  intro fault h
  cases h

theorem refuse (reason : Malformed) : Orderly (refuse reason : Except BuildFault α) := by
  constructor
  intro fault h
  cases h
  exact ⟨reason, rfl⟩

theorem bind {x : Except BuildFault α} {f : α → Except BuildFault β} (hx : Orderly x)
    (hf : ∀ a, x = .ok a → Orderly (f a)) : Orderly (x >>= f) := by
  cases x with
  | error fault =>
    obtain ⟨reason, rfl⟩ := hx.told fault rfl
    exact refuse reason
  | ok a => exact hf a rfl

theorem mapM {f : α → Except BuildFault β} {xs : List α} (h : ∀ x ∈ xs, Orderly (f x)) :
    Orderly (xs.mapM f) := by
  induction xs with
  | nil => exact ok []
  | cons x xs ih =>
    rw [List.mapM_cons]
    have hrest : Orderly (xs.mapM f) := ih fun y hy => h y (List.mem_cons_of_mem _ hy)
    exact (h x (List.mem_cons_self ..)).bind fun y _ => hrest.bind fun ys _ => ok (y :: ys)

theorem forM {f : α → Except BuildFault Unit} {xs : List α} (h : ∀ x ∈ xs, Orderly (f x)) :
    Orderly (xs.forM f) := by
  rw [List.forM_eq_forM]
  induction xs with
  | nil => exact ok ()
  | cons x xs ih =>
    rw [List.forM_cons]
    have hrest : Orderly (ForM.forM xs f) := ih fun y hy => h y (List.mem_cons_of_mem _ hy)
    exact (h x (List.mem_cons_self ..)).bind fun _ _ => hrest

end Orderly

/-! ## Readers -/

theorem orderly_required (data : Value) (name place : String) :
    Orderly (required data name place) := by
  unfold required
  split
  · split
    · exact .refuse _
    · exact .ok _
  · exact .refuse _

/-- A list is asked of objects only. -/
theorem orderly_optionalList {data : Value} (hobject : data.isDict = true) (name : String) :
    Orderly (optionalList data name) := by
  unfold optionalList
  split
  · split
    · exact .ok _
    · exact .ok _
    · exact .refuse _
  · next hdict =>
    cases data with
    | dict entries => exact absurd rfl (hdict entries)
    | _ => cases hobject

theorem orderly_readTypeRef {context : String} {levels : Nat} {inside : Bool} {data : Value}
    (hl : data.Labelled) : Orderly (readTypeRef context levels inside data) := by
  induction levels generalizing inside data with
  | zero => exact .refuse _
  | succ levels ih =>
    by_cases hkind : ∃ kind, data.Has "kind" kind
    · obtain ⟨kind, hk⟩ := hkind
      have hword : kind.isString = true := hl.isString_of_has hk (by simp)
      have hnext : ∀ inside, Orderly (readTypeRef context levels inside (data.member "ofType")) :=
        fun inside => ih (hl.member "ofType")
      rw [readTypeRef_succ hk (Value.hashable_of_isString hword)]
      split
      · split
        · exact .refuse _
        · exact (hnext true).bind fun _ _ => .ok _
      · split
        · exact (hnext false).bind fun _ _ => .ok _
        · exact (orderly_required ..).bind fun _ _ => .ok _
    · -- Without a kind there is nothing to compare.
      rw [readTypeRef]
      split
      · exact .refuse _
      · exact (orderly_required ..).bind fun kind hk =>
          absurd ⟨kind, required_eq_ok.mp hk⟩ hkind

theorem orderly_inputValue {context : String} {data : Value} (hl : data.Labelled) :
    Orderly (inputValue context data) :=
  (orderly_required ..).bind fun _ _ =>
    (orderly_readTypeRef (hl.member "type")).bind fun _ _ => .ok _

/-- What is listed under a key is read item by item. -/
theorem orderly_mapM_listed {α : Type} {read : Value → Except BuildFault α} {data : Value}
    {key : String} {items : List Value} (hl : data.Labelled)
    (hlist : optionalList data key = .ok items)
    (hread : ∀ item : Value, item.Labelled → Orderly (read item)) : Orderly (items.mapM read) :=
  .mapM fun item hi => hread item (hl.of_lists (optionalList_eq_ok.mp hlist) hi)

theorem orderly_field {typeName data : Value} (hl : data.Labelled) :
    Orderly (field typeName data) := by
  refine (orderly_required ..).bind fun name hname => ?_
  have hobject : data.isDict = true := (required_eq_ok.mp hname).isObject
  refine (orderly_readTypeRef (hl.member "type")).bind fun type _ => ?_
  refine (orderly_optionalList hobject "args").bind fun items hitems => ?_
  exact (orderly_mapM_listed hl hitems fun _ hi => orderly_inputValue hi).bind fun _ _ => .ok _

theorem orderly_enumValue (typeName data : Value) : Orderly (enumValue typeName data) :=
  (orderly_required ..).bind fun _ _ => .ok _

section Listed
variable {typeName data : Value} (hobject : data.isDict = true)
include hobject

theorem orderly_referencedNames (key : String) : Orderly (referencedNames typeName key data) :=
  (orderly_optionalList hobject key).bind fun _ _ => .mapM fun _ _ => orderly_required ..

theorem orderly_fields (hl : data.Labelled) : Orderly (fields typeName data) :=
  (orderly_optionalList hobject "fields").bind fun _ hitems =>
    orderly_mapM_listed hl hitems fun _ hi => orderly_field hi

theorem orderly_typeBody? {word : String} (hl : data.Labelled) {body : Except BuildFault TypeBody}
    (h : typeBody? word typeName data = some body) : Orderly body := by
  unfold typeBody? at h
  split at h
  case h_7 => cases h
  all_goals cases h
  case h_1 => exact .ok _
  case h_2 | h_3 =>
    exact (orderly_referencedNames hobject "interfaces").bind fun _ _ =>
      (orderly_fields hobject hl).bind fun _ _ => .ok _
  case h_4 => exact (orderly_referencedNames hobject "possibleTypes").bind fun _ _ => .ok _
  case h_5 =>
    exact (orderly_optionalList hobject "enumValues").bind fun _ hitems =>
      (orderly_mapM_listed hl hitems fun _ _ => orderly_enumValue ..).bind fun _ _ => .ok _
  case h_6 =>
    exact (orderly_optionalList hobject "inputFields").bind fun _ hitems =>
      (orderly_mapM_listed hl hitems fun _ hi => orderly_inputValue hi).bind fun _ _ => .ok _

theorem orderly_typeDef {name kind : Value} (hkind : kind.isString = true) (hl : data.Labelled) :
    Orderly (typeDef name kind data) := by
  unfold typeDef
  rw [if_neg (by simp [Value.hashable_of_isString hkind])]
  split
  · split
    · next body hb => exact (orderly_typeBody? hobject hl hb).bind fun _ _ => .ok _
    · exact .refuse _
  · exact .refuse _

end Listed

/-! ## Entries and roots -/

theorem orderly_entry {known : List Value} {data : Value} (hl : data.Labelled) :
    Orderly (entry known data) := by
  refine (orderly_required ..).bind fun kind hkind => ?_
  refine (orderly_required ..).bind fun name hname => ?_
  have hk : data.Has "kind" kind := required_eq_ok.mp hkind
  have hword : kind.isString = true := hl.isString_of_has hk (by simp)
  have htext : name.isString = true := hl.isString_name (required_eq_ok.mp hname)
  obtain ⟨front, hfront⟩ := Value.isString_iff_front.mp htext
  rw [if_neg (by simp [Value.hashable_of_isString htext])]
  split
  · exact .refuse _
  · simp only [hfront]
    split
    · exact .ok _
    · exact (orderly_typeDef hk.isObject hword hl).bind fun _ _ => .ok _

theorem orderly_entries {known items : List Value} (hl : ∀ data ∈ items, data.Labelled) :
    Orderly (entries known items) := by
  induction items generalizing known with
  | nil => exact .ok _
  | cons data items ih =>
    have hrest : ∀ known, Orderly (entries known items) :=
      fun known => ih fun other ho => hl other (List.mem_cons_of_mem _ ho)
    exact (orderly_entry (hl data (List.mem_cons_self ..))).bind fun _ _ =>
      (hrest _).bind fun _ _ => .ok _

theorem orderly_rootName (data : Value) (operation : String) : Orderly (rootName data operation) := by
  unfold rootName
  split
  · exact .ok _
  · exact orderly_required ..

theorem orderly_schemaData (result : Value) : Orderly (schemaData result) := by
  unfold schemaData
  split
  · refine (orderly_required ..).bind fun found _ => ?_
    split
    · exact .ok _
    · exact .refuse _
  · exact .refuse _

theorem orderly_typeList (data : Value) : Orderly (typeList data) := by
  refine (orderly_required ..).bind fun found _ => ?_
  split
  · exact .ok _
  · exact .refuse _

/-! ## The whole result -/

section Known
variable {known : List Value} (hk : ∀ name ∈ known, name.isString = true)
include hk

theorem orderly_checkReferences {type : TypeDef}
    (ht : ∀ name, type.body.Mentions name → name.isString = true) :
    Orderly (checkReferences known type) := by
  by_cases hd : ∃ name, type.body.Mentions name ∧ name ∉ known
  · obtain ⟨texts, hcheck, -, -⟩ := checkReferences_eq_error hk ht hd
    rw [hcheck]
    exact .refuse _
  · have hall : ∀ name, type.body.Mentions name → name ∈ known := by
      intro name hm
      by_contra hn
      exact hd ⟨name, hm, hn⟩
    rw [(checkReferences_eq_ok hk).mpr hall]
    exact .ok _

theorem orderly_checkRoot {root : Value} (hr : root ≠ .null → root.isString = true) :
    Orderly (checkRoot known root) := by
  by_cases hknown : root ≠ .null → root ∈ known
  · rw [(checkRoot_eq_ok hk).mpr hknown]
    exact .ok _
  · obtain ⟨hne, hn⟩ := Classical.not_imp.mp hknown
    rw [checkRoot_eq_error hk (hr hne) hn]
    exact .refuse _

end Known

theorem Envelope.inside {result data : Value} (h : Envelope result data) : data.Inside result := by
  cases h with
  | bare h => exact .of_lookup h
  | response _ hd h => exact (Value.Inside.of_lookup h).trans (.of_lookup hd)

theorem RootNamed.isString {data root : Value} {key : String} (h : RootNamed data key root)
    (hl : data.Labelled) (hr : root ≠ .null) : root.isString = true := by
  cases h with
  | missing _ => exact absurd rfl hr
  | named hn => exact (hl.member key).isString_name hn

namespace Outline
variable {result : Value} {items : List Value} {schema : Schema} (h : Outline result items schema)
  (hl : result.Labelled)
include h hl

theorem labelled {data : Value} (hd : data ∈ items) : data.Labelled := by
  obtain ⟨holder, henv, hlist, -⟩ := h.exists_data
  exact hl.inside (((Value.Inside.item hd .whole).trans (.of_has hlist)).trans henv.inside)

theorem body_labelled {type : TypeDef} (ht : type ∈ schema.types) :
    ∃ data : Value, type.body.DescribedBy data ∧ data.Labelled := by
  obtain ⟨data, hd, hdesc⟩ := exists_item_of_forall₂ h.described ht
  exact ⟨data, hdesc.members, h.labelled hl (List.mem_filter.mp hd).1⟩

theorem isString_root {root : Value} (hr : root ∈ [schema.query, schema.mutation, schema.subscription])
    (hne : root ≠ .null) : root.isString = true := by
  obtain ⟨data, henv, -, hq, hm, hs⟩ := h.exists_data
  have hdata : data.Labelled := hl.inside henv.inside
  simp only [List.mem_cons, List.not_mem_nil, or_false] at hr
  rcases hr with rfl | rfl | rfl
  · exact hq.isString hdata hne
  · exact hm.isString hdata hne
  · exact hs.isString hdata hne

end Outline

/-- The checks of a result come after its outline is complete. -/
theorem orderly_build {result : Value} (hl : result.Labelled) : Orderly (build result) := by
  refine (orderly_schemaData result).bind fun data hdata => ?_
  refine (orderly_typeList data).bind fun items hitems => ?_
  have henv : Envelope result data := schemaData_eq_ok.mp hdata
  have hlist : data.Has "types" (.list items) := typeList_eq_ok.mp hitems
  have hentries : ∀ entry ∈ items, entry.Labelled := fun entry he =>
    hl.inside (((Value.Inside.item he .whole).trans (.of_has hlist)).trans henv.inside)
  refine (orderly_entries hentries).bind fun ⟨known, types⟩ hread => ?_
  refine (orderly_rootName data "queryType").bind fun query hq => ?_
  refine (orderly_rootName data "mutationType").bind fun mutation hm => ?_
  refine (orderly_rootName data "subscriptionType").bind fun subscription hs => ?_
  obtain ⟨rfl, hent, -, hnodup, hd⟩ := entries_eq_ok.mp hread
  have ho : Outline result items { types, query, mutation, subscription } :=
    ⟨⟨data, henv, hlist, rootName_eq_ok.mp hq, rootName_eq_ok.mp hm, rootName_eq_ok.mp hs⟩, hent,
      hnodup, hd⟩
  have hk : ∀ name ∈ [] ++ items.map entryName, name.isString = true := ho.isString_names
  have htypes : ∀ type ∈ types, Orderly (checkReferences ([] ++ items.map entryName) type) := by
    intro type ht
    obtain ⟨entry, hdesc, hentry⟩ := ho.body_labelled hl ht
    exact orderly_checkReferences hk fun name hm => hdesc.isString hentry hm
  have hroots : ∀ root ∈ [query, mutation, subscription],
      Orderly (checkRoot ([] ++ items.map entryName) root) :=
    fun root hr => orderly_checkRoot hk fun hne => ho.isString_root hl hr hne
  exact (Orderly.forM htypes).bind fun _ _ => (Orderly.forM hroots).bind fun _ _ => .ok _

/-- A document in which every kind and every name is a text, null or missing is built or refused,
however malformed it is: there is no third ending. A schema that is built from it has a text. -/
theorem build_or_refuse {result : Value} (hl : result.Labelled) :
    (∃ schema text, build result = .ok schema ∧ Sdl.print schema = .ok text) ∨
      ∃ reason, build result = .error (.malformed reason) := by
  cases hb : build result with
  | error fault =>
    obtain ⟨reason, rfl⟩ := (orderly_build hl).told fault hb
    exact .inr ⟨reason, rfl⟩
  | ok schema =>
    obtain ⟨items, ho⟩ := exists_outline_of_build hb
    refine .inl ⟨schema, Sdl.schemaText schema, rfl, Sdl.print_of_isString fun type ht => ?_⟩
    obtain ⟨entry, hdesc, hentry⟩ := ho.body_labelled hl ht
    exact hdesc.isString_joinedNames hentry

/-- An enum whose members are no list, a description that is none, and a number among the types. -/
def brokenResult : Value :=
  .object [("__schema", .object [("queryType", .int 7), ("types", .list [
    .object [("kind", .str "ENUM"), ("name", .str "Color"), ("description", .list [.null]),
      ("enumValues", .object [("name", .null)])],
    .int 3])])]

theorem brokenResult_labelled : brokenResult.Labelled := by
  simp [brokenResult, Value.labelled_object, Value.labelled_list, Value.labelled_leaf, Value.isString]

theorem build_or_refuse_broken : brokenResult.Labelled ∧
    ((∃ schema text, build brokenResult = .ok schema ∧ Sdl.print schema = .ok text) ∨
      ∃ reason, build brokenResult = .error (.malformed reason)) :=
  ⟨brokenResult_labelled, build_or_refuse brokenResult_labelled⟩

end Introspection
end SchemaScribe
