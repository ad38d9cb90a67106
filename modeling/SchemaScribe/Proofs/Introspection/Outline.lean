import SchemaScribe.Proofs.Introspection.Described
import SchemaScribe.Proofs.Value.Codes

/-! # The outline of an introspection result

What a result says before any reference in it is looked up: its list of entries, the declarations
that they describe, and the roots. A schema is built exactly when a result has an outline all of
whose references are names of entries.
-/
namespace SchemaScribe.Introspection
open Success

/-- The `__schema` object of a result is its own, or that of its data where it has none. -/
inductive Envelope : Value → Value → Prop
  | bare {members found : Entries} : Value.lookup "__schema" members = some (.dict found) →
      Envelope (.dict members) (.dict found)
  | response {members inner found : Entries} : Value.lookup "__schema" members = none →
      Value.lookup "data" members = some (.dict inner) →
      Value.lookup "__schema" inner = some (.dict found) → Envelope (.dict members) (.dict found)

theorem has_dict_iff {entries found : Entries} {key : String} :
    (Value.dict entries).Has key (.dict found) ↔ Value.lookup key entries = some (.dict found) := by
  constructor
  · intro h
    have hf := h.found
    simp only [Value.member] at hf
    cases hl : Value.lookup key entries with
    | none => simp [hl] at hf
    | some value => simpa [hl] using hf
  · intro h
    exact ⟨rfl, by simp [Value.member, h], by simp⟩

/-- The object in which `__schema` is looked up. -/
def schemaHolder (members : Entries) : Value :=
  if (Value.lookup "__schema" members).isNone && ((Value.dict members).member "data").isDict then
    (Value.dict members).member "data"
  else .dict members

theorem schemaData_dict_eq_ok {members : Entries} {data : Value} :
    schemaData (.dict members) = .ok data ↔
      ∃ found, data = .dict found ∧ (schemaHolder members).Has "__schema" (.dict found) := by
  show (required (schemaHolder members) "__schema" "the introspection result" >>= _) = _ ↔ _
  rw [bind_eq_ok]
  constructor
  · rintro ⟨value, hv, h⟩
    split at h
    · cases h
      exact ⟨_, rfl, required_eq_ok.mp hv⟩
    · simp [refuse] at h
  · rintro ⟨found, rfl, h⟩
    exact ⟨_, required_eq_ok.mpr h, rfl⟩

theorem schemaData_eq_ok {result data : Value} :
    schemaData result = .ok data ↔ Envelope result data := by
  cases result with
  | dict members =>
    rw [schemaData_dict_eq_ok, schemaHolder]
    constructor
    · rintro ⟨found, rfl, h⟩
      split at h
      · next hc =>
        simp only [Bool.and_eq_true, Option.isNone_iff_eq_none, Value.member] at hc
        obtain ⟨hn, hd⟩ := hc
        cases hl : Value.lookup "data" members with
        | none => simp [hl, Value.isDict] at hd
        | some value =>
          cases value with
          | dict inner =>
            simp only [Value.member, hl, Option.getD_some] at h
            exact .response hn hl (has_dict_iff.mp h)
          | _ => simp [hl, Value.isDict] at hd
      · exact .bare (has_dict_iff.mp h)
    · intro h
      cases h with
      | bare h =>
        refine ⟨_, rfl, ?_⟩
        rw [if_neg (by simp [h])]
        exact has_dict_iff.mpr h
      | response hn hd h =>
        refine ⟨_, rfl, ?_⟩
        rw [if_pos (by simp [hn, hd, Value.member, Value.isDict])]
        simp only [Value.member, hd, Option.getD_some]
        exact has_dict_iff.mpr h
  | _ =>
    constructor
    · intro h
      simp [schemaData, refuse] at h
    · intro h
      cases h

theorem Envelope.unique {result data other : Value} (h : Envelope result data)
    (ho : Envelope result other) : data = other :=
  Except.ok.inj ((schemaData_eq_ok.mpr h).symm.trans (schemaData_eq_ok.mpr ho))

theorem typeList_eq_ok {data : Value} {items : List Value} :
    typeList data = .ok items ↔ data.Has "types" (.list items) := by
  rw [typeList, bind_eq_ok]
  constructor
  · rintro ⟨value, hv, h⟩
    split at h
    · cases h
      exact required_eq_ok.mp hv
    · simp [refuse] at h
  · intro h
    exact ⟨_, required_eq_ok.mpr h, rfl⟩

/-- The root that is named under a key; none and null name no root. -/
inductive RootNamed (data : Value) (key : String) : Value → Prop
  | missing : data.member key = .null → RootNamed data key .null
  | named {name : Value} : (data.member key).Has "name" name → RootNamed data key name

theorem rootName_eq_ok {data root : Value} {key : String} :
    rootName data key = .ok root ↔ RootNamed data key root := by
  rw [rootName]
  constructor
  · intro h
    split at h
    · rename_i hn
      cases h
      exact .missing hn
    · exact .named (required_eq_ok.mp h)
  · intro h
    cases h with
    | missing hn => rw [hn]
    | named hh =>
      split
      · rename_i hn
        cases hn ▸ hh.isObject
      · exact required_eq_ok.mpr hh

/-! ## Entries -/

/-- The name under which an entry of the list of types is known. -/
def entryName (data : Value) : Value := data.member "name"

/-- An entry is an object with a kind and a text for a name. -/
structure IsEntry (data : Value) : Prop where
  kind : ∃ kind, data.Has "kind" kind
  name : ∃ name, name.isString = true ∧ data.Has "name" name

/-- An entry is declared unless its name belongs to the introspection system. -/
def isDeclared (data : Value) : Bool := (entryName data).front?.any (!isMetaName ·)

theorem IsEntry.has_name {data : Value} (h : IsEntry data) : data.Has "name" (entryName data) := by
  obtain ⟨name, -, hn⟩ := h.name
  rwa [entryName, hn.found]

theorem IsEntry.isString {data : Value} (h : IsEntry data) : (entryName data).isString = true := by
  obtain ⟨name, ht, hn⟩ := h.name
  rwa [entryName, hn.found]

theorem any_same_iff_of_isString {known : List Value} {name : Value} (h : name.isString = true) :
    known.any (·.same name) = true ↔ name ∈ known := by
  simp [Value.same_iff_of_isString h]

theorem entry_eq_ok {known : List Value} {data name : Value} {declared : Option TypeDef} :
    entry known data = .ok (name, declared) ↔
      IsEntry data ∧ name = entryName data ∧ name ∉ known ∧
        List.Forall₂ TypeDef.DescribedBy declared.toList ([data].filter isDeclared) := by
  simp only [entry, bind_eq_ok, required_eq_ok]
  constructor
  · rintro ⟨kind, hk, found, hn, h⟩
    split at h
    · simp at h
    split at h
    · simp [refuse] at h
    rename_i hknown
    split at h
    next front hfront =>
      have ht : found.isString = true := Value.isString_iff_front.mpr ⟨front, hfront⟩
      rw [any_same_iff_of_isString ht] at hknown
      have hent : IsEntry data := ⟨⟨kind, hk⟩, found, ht, hn⟩
      cases hm : isMetaName front with
      | true =>
        simp only [hm, if_true] at h
        cases h
        refine ⟨hent, hn.found.symm, hknown, ?_⟩
        simp [isDeclared, entryName, hn.found, hfront, hm]
      | false =>
        simp only [hm, Bool.false_eq_true, if_false] at h
        obtain ⟨type, ht, h⟩ := bind_eq_ok.mp h
        cases h
        refine ⟨hent, hn.found.symm, hknown, ?_⟩
        simpa [isDeclared, entryName, hn.found, hfront, hm] using (typeDef_eq_ok hk hn).mp ht
    · cases h
  · rintro ⟨hent, rfl, hknown, hd⟩
    obtain ⟨kind, hk⟩ := hent.kind
    have hn := hent.has_name
    refine ⟨kind, hk, entryName data, hn, ?_⟩
    obtain ⟨front, hfront⟩ := Value.isString_iff_front.mp hent.isString
    rw [if_neg (by simp [Value.hashable_of_isString hent.isString]),
      if_neg (mt (any_same_iff_of_isString hent.isString).mp hknown)]
    simp only [hfront]
    cases hm : isMetaName front with
    | true =>
      have hnone : declared = none := by simpa [isDeclared, hfront, hm] using hd
      rw [hnone]
      rfl
    | false =>
      simp only [List.filter_cons, isDeclared, hfront, Option.any_some, hm, List.filter_nil] at hd
      cases declared with
      | none => simp at hd
      | some type =>
        have ht : type.DescribedBy data := by simpa using hd
        simp [(typeDef_eq_ok hk hn).mpr ht]

/-- The first entry accounts for at most one declaration, the first. -/
theorem described_cons_iff (data : Value) (items : List Value) {types : List TypeDef} :
    List.Forall₂ TypeDef.DescribedBy types ((data :: items).filter isDeclared) ↔
      ∃ (declared : Option TypeDef) (rest : List TypeDef), types = declared.toList ++ rest ∧
        List.Forall₂ TypeDef.DescribedBy declared.toList ([data].filter isDeclared) ∧
        List.Forall₂ TypeDef.DescribedBy rest (items.filter isDeclared) := by
  cases hd : isDeclared data with
  | true =>
    simp only [List.filter_cons, hd, if_true, List.filter_nil]
    constructor
    · intro h
      cases h with
      | cons ht hr => exact ⟨some _, _, rfl, .cons ht .nil, hr⟩
    · rintro ⟨declared, rest, rfl, ht, hr⟩
      exact List.rel_append ht hr
  | false =>
    simp only [List.filter_cons, hd, Bool.false_eq_true, if_false, List.filter_nil]
    constructor
    · intro h
      exact ⟨none, types, rfl, .nil, h⟩
    · rintro ⟨declared, rest, rfl, ht, hr⟩
      exact List.rel_append ht hr

/-- The entries are read one after the other: their names are new each time, and those that are
declared describe the declarations in order. -/
theorem entries_eq_ok {known items names : List Value} {types : List TypeDef} :
    entries known items = .ok (names, types) ↔
      names = known ++ items.map entryName ∧ (∀ data ∈ items, IsEntry data) ∧
        (∀ name ∈ items.map entryName, name ∉ known) ∧ (items.map entryName).Nodup ∧
        List.Forall₂ TypeDef.DescribedBy types (items.filter isDeclared) := by
  -- The known names grow with every entry.
  induction items generalizing known names types with
  | nil => simp [entries, eq_comm]
  | cons data items ih =>
    simp only [entries, bind_eq_ok, pure_eq_ok, Prod.exists, Prod.mk.injEq, entry_eq_ok, ih,
      List.map_cons, List.mem_cons, forall_eq_or_imp, List.nodup_cons]
    rw [described_cons_iff data items]
    constructor
    · rintro ⟨_, declared, ⟨hent, rfl, hnew, hd⟩, _, rest, ⟨rfl, hents, hnews, hnodup, hr⟩, rfl,
        rfl⟩
      refine ⟨by simp, ⟨hent, hents⟩, ⟨hnew, ?_⟩, ⟨?_, hnodup⟩,
        declared, rest, rfl, hd, hr⟩
      · intro name hn hk
        exact hnews name hn (List.mem_append_left _ hk)
      · intro hmem
        exact hnews _ hmem (List.mem_append_right _ (List.mem_singleton_self _))
    · rintro ⟨rfl, ⟨hent, hents⟩, ⟨hnew, hnews⟩, ⟨hfirst, hnodup⟩, declared, rest, rfl, hdecl, hr⟩
      refine ⟨_, declared, ⟨hent, rfl, hnew, hdecl⟩, _, rest, ⟨rfl, hents, ?_, hnodup, hr⟩,
        by simp, rfl⟩
      intro name hn hk
      rcases List.mem_append.mp hk with hk | hk
      · exact hnews name hn hk
      · exact hfirst (List.mem_singleton.mp hk ▸ hn)

/-! ## Outlines -/

/-- What a result says before references are looked up. -/
structure Outline (result : Value) (items : List Value) (schema : Schema) : Prop where
  exists_data : ∃ data, Envelope result data ∧ data.Has "types" (.list items) ∧
    RootNamed data "queryType" schema.query ∧ RootNamed data "mutationType" schema.mutation ∧
    RootNamed data "subscriptionType" schema.subscription
  isEntry : ∀ data ∈ items, IsEntry data
  nodup : (items.map entryName).Nodup
  described : List.Forall₂ TypeDef.DescribedBy schema.types (items.filter isDeclared)

/-- What is left to do after the outline is to look up the references of the types and the roots. -/
theorem Outline.build_eq {result : Value} {items : List Value} {schema : Schema}
    (h : Outline result items schema) :
    build result = (do
      schema.types.forM (checkReferences (items.map entryName))
      [schema.query, schema.mutation, schema.subscription].forM (checkRoot (items.map entryName))
      return schema) := by
  obtain ⟨⟨data, henv, hlist, hq, hm, hs⟩, hent, hnodup, hd⟩ := h
  have hread : entries [] items = .ok (items.map entryName, schema.types) :=
    entries_eq_ok.mpr ⟨rfl, hent, by simp, hnodup, hd⟩
  simp only [build, schemaData_eq_ok.mpr henv, typeList_eq_ok.mpr hlist, hread,
    rootName_eq_ok.mpr hq, rootName_eq_ok.mpr hm, rootName_eq_ok.mpr hs, ok_bind]

/-- A schema is only built from a result that has an outline. -/
theorem exists_outline_of_build {result : Value} {schema : Schema}
    (h : build result = .ok schema) : ∃ items, Outline result items schema := by
  simp only [build, bind_eq_ok, pure_eq_ok, schemaData_eq_ok, typeList_eq_ok, rootName_eq_ok,
    Prod.exists] at h
  obtain ⟨data, henv, items, hlist, names, types, hread, query, hq, mutation, hm, subscription,
    hs, -, -, -, -, rfl⟩ := h
  obtain ⟨-, hent, -, hnodup, hd⟩ := entries_eq_ok.mp hread
  exact ⟨items, ⟨data, henv, hlist, hq, hm, hs⟩, hent, hnodup, hd⟩

end SchemaScribe.Introspection
