import SchemaScribe.Schema.Introspection
import SchemaScribe.Proofs.Introspection.Success

/-! # Declarations and the data that describes them

What it is for an object of an introspection result to describe a type reference, a member or a
whole declaration, said member by member. Reading gives a declaration exactly when the data
describes it.
-/
namespace SchemaScribe
open Introspection Success

def Value.object (members : List (String × Value)) : Value :=
  .dict (members.map fun member => (.str member.1, member.2))

theorem Value.lookup_map_str (key : String) (members : List (String × Value)) :
    Value.lookup key (members.map fun member => (.str member.1, member.2)) =
      members.lookup key := by
  induction members with
  | nil => rfl
  | cons member members ih =>
    rw [List.map_cons, Value.lookup, ih, List.lookup_cons]
    by_cases h : member.1 = key
    · simp [h]
    · have hb : (key == member.1) = false := beq_eq_false_iff_ne.mpr (Ne.symm h)
      rw [if_neg h, hb]

@[simp] theorem Value.member_object (key : String) (members : List (String × Value)) :
    (Value.object members).member key = (members.lookup key).getD .null := by
  rw [Value.object, Value.member, Value.lookup_map_str]

/-- The data is an object with that value, which is not null, under a name. -/
structure Value.Has (data : Value) (key : String) (value : Value) : Prop where
  isObject : data.isDict = true
  found : data.member key = value
  present : value ≠ .null

/-- The data is an object with that list under a name; none and null are the empty list. -/
structure Value.Lists (data : Value) (key : String) (items : List Value) : Prop where
  isObject : data.isDict = true
  found : data.member key = .list items ∨ data.member key = .null ∧ items = []

theorem required_eq_ok {data value : Value} {key place : String} :
    required data key place = .ok value ↔ data.Has key value := by
  cases data with
  | dict entries =>
    have hm : (Value.dict entries).member key = (Value.lookup key entries).getD .null := rfl
    simp only [required]
    constructor
    · intro h
      split at h
      · simp [refuse] at h
      · rename_i hn
        cases h
        exact ⟨rfl, hm, hn⟩
    · rintro ⟨-, hf, hp⟩
      rw [hm] at hf
      split
      · rename_i hn
        exact absurd (hf.symm.trans hn) hp
      · rw [hf]
  | _ => exact ⟨fun h => by simp [required, refuse] at h, fun h => by cases h.isObject⟩

theorem optionalList_eq_ok {data : Value} {key : String} {items : List Value} :
    optionalList data key = .ok items ↔ data.Lists key items := by
  cases data with
  | dict entries =>
    have hm : (Value.dict entries).member key = (Value.lookup key entries).getD .null := rfl
    simp only [optionalList]
    constructor
    · intro h
      refine ⟨rfl, ?_⟩
      rw [hm]
      split at h
      · rename_i hn
        cases h
        exact .inr ⟨hn, rfl⟩
      · rename_i hl
        cases h
        exact .inl hl
      · simp [refuse] at h
    · rintro ⟨-, hf⟩
      rw [hm] at hf
      rcases hf with hf | ⟨hf, rfl⟩ <;> rw [hf]
  | _ => exact ⟨fun h => by simp [optionalList] at h, fun h => by cases h.isObject⟩

/-! ## Type references -/

namespace TypeRef

def isNonNull : TypeRef → Bool
  | .nonNull _ => true
  | _ => false

/-- No non-null modifier stands directly inside another one. -/
def WellNested : TypeRef → Prop
  | .named _ => True
  | .list item => item.WellNested
  | .nonNull item => item.isNonNull = false ∧ item.WellNested

/-- The data spells the reference: an object for each modifier with the next one under `ofType`,
and at the end an object of any other kind with the name. -/
def SpelledBy : TypeRef → Value → Prop
  | .named name, data =>
    (∃ kind, data.Has "kind" kind ∧ kind.hashable = true ∧ kind ≠ .str "LIST" ∧
      kind ≠ .str "NON_NULL") ∧ data.Has "name" name
  | .list item, data => data.Has "kind" (.str "LIST") ∧ item.SpelledBy (data.member "ofType")
  | .nonNull item, data =>
    data.Has "kind" (.str "NON_NULL") ∧ item.SpelledBy (data.member "ofType")

/-- The data describes a reference that is neither too deep nor badly nested. -/
structure DescribedBy (type : TypeRef) (data : Value) : Prop where
  spelled : type.SpelledBy data
  shallow : type.depth < maxLevels
  nested : type.WellNested

end TypeRef

section Levels
variable {context : String} {levels : Nat} {inside : Bool} {data : Value}

/-- With a kind, what a level stands for depends on the kind alone. -/
theorem readTypeRef_succ {kind : Value} (hk : data.Has "kind" kind) (hh : kind.hashable = true) :
    readTypeRef context (levels + 1) inside data =
      if kind.same (.str "NON_NULL") then
        if inside then refuse (.doubledNonNull context)
        else readTypeRef context levels true (data.member "ofType") >>= (pure ·.nonNull)
      else if kind.same (.str "LIST") then
        readTypeRef context levels false (data.member "ofType") >>= (pure ·.list)
      else required data "name" context >>= (pure <| TypeRef.named ·) := by
  have hnull : data.isNull = false := by
    cases data with
    | null => cases hk.isObject
    | _ => rfl
  have hread : required data "kind" context = .ok kind := required_eq_ok.mpr hk
  simp only [readTypeRef, hnull, hread, hh, ok_bind, Bool.false_eq_true, Bool.not_true, if_false]

/-- A level that is read has a kind that can be compared with the words for modifiers. -/
theorem exists_kind_of_readTypeRef {type : TypeRef}
    (h : readTypeRef context (levels + 1) inside data = .ok type) :
    ∃ kind, data.Has "kind" kind ∧ kind.hashable = true := by
  simp only [readTypeRef] at h
  split at h
  · simp [refuse] at h
  obtain ⟨kind, hk, h⟩ := bind_eq_ok.mp h
  refine ⟨kind, required_eq_ok.mp hk, ?_⟩
  cases hh : kind.hashable with
  | true => rfl
  | false => simp [hh] at h

theorem readTypeRef_eq_ok {type : TypeRef} :
    readTypeRef context levels inside data = .ok type ↔
      type.SpelledBy data ∧ type.depth < levels ∧ type.WellNested ∧
        (inside = true → type.isNonNull = false) := by
  induction levels generalizing inside data type with
  | zero => simp [readTypeRef, refuse]
  | succ levels ih =>
    constructor
    · intro h
      obtain ⟨kind, hk, hh⟩ := exists_kind_of_readTypeRef h
      rw [readTypeRef_succ hk hh] at h
      split at h
      · rename_i hn
        rw [Value.same_str_iff] at hn
        split at h
        · simp [refuse] at h
        rename_i hin
        obtain ⟨item, hi, h⟩ := bind_eq_ok.mp h
        cases h
        obtain ⟨hs, hd, hw, hnn⟩ := ih.mp hi
        exact ⟨⟨hn ▸ hk, hs⟩, Nat.succ_lt_succ hd, ⟨hnn rfl, hw⟩, fun h => absurd h hin⟩
      rename_i hn
      split at h
      · rename_i hl
        rw [Value.same_str_iff] at hl
        obtain ⟨item, hi, h⟩ := bind_eq_ok.mp h
        cases h
        obtain ⟨hs, hd, hw, -⟩ := ih.mp hi
        exact ⟨⟨hl ▸ hk, hs⟩, Nat.succ_lt_succ hd, hw, fun _ => rfl⟩
      · rename_i hl
        rw [Value.same_str_iff] at hn hl
        obtain ⟨name, hname, h⟩ := bind_eq_ok.mp h
        cases h
        exact ⟨⟨⟨kind, hk, hh, hl, hn⟩, required_eq_ok.mp hname⟩, Nat.succ_pos _, trivial,
          fun _ => rfl⟩
    · rintro ⟨hs, hd, hw, hin⟩
      cases type with
      | named name =>
        obtain ⟨⟨kind, hk, hh, hl, hn⟩, hname⟩ := hs
        rw [readTypeRef_succ hk hh, if_neg (mt Value.same_str_iff.mp hn),
          if_neg (mt Value.same_str_iff.mp hl), required_eq_ok.mpr hname]
        rfl
      | list item =>
        have hi : readTypeRef context levels false (data.member "ofType") = .ok item :=
          ih.mpr ⟨hs.2, Nat.lt_of_succ_lt_succ hd, hw, by simp⟩
        rw [readTypeRef_succ hs.1 rfl, if_neg (by simp), if_pos (by simp), hi]
        rfl
      | nonNull item =>
        have hi : readTypeRef context levels true (data.member "ofType") = .ok item :=
          ih.mpr ⟨hs.2, Nat.lt_of_succ_lt_succ hd, hw.2, fun _ => hw.1⟩
        have hout : inside = false := by
          cases inside with
          | false => rfl
          | true => cases hin rfl
        rw [readTypeRef_succ hs.1 rfl, if_pos (by simp), hout, hi]
        rfl

theorem typeRef_eq_ok {type : TypeRef} :
    typeRef data context = .ok type ↔ type.DescribedBy data := by
  rw [typeRef, readTypeRef_eq_ok]
  constructor
  · rintro ⟨hs, hd, hw, -⟩
    exact ⟨hs, hd, hw⟩
  · rintro ⟨hs, hd, hw⟩
    exact ⟨hs, hd, hw, by simp⟩

end Levels

/-! ## Members and declarations -/

structure InputValue.DescribedBy (value : InputValue) (data : Value) : Prop where
  name : data.Has "name" value.name
  type : value.type.DescribedBy (data.member "type")
  description : value.description = data.member "description"
  defaultValue : value.defaultValue = data.member "defaultValue"

structure Field.DescribedBy (field : Field) (data : Value) : Prop where
  name : data.Has "name" field.name
  type : field.type.DescribedBy (data.member "type")
  description : field.description = data.member "description"
  arguments : ∃ items, data.Lists "args" items ∧
    List.Forall₂ InputValue.DescribedBy field.arguments items
  deprecated : field.deprecated = (data.member "isDeprecated").truthy
  reason : field.reason = data.member "deprecationReason"

structure EnumValue.DescribedBy (value : EnumValue) (data : Value) : Prop where
  name : data.Has "name" value.name
  description : value.description = data.member "description"
  deprecated : value.deprecated = (data.member "isDeprecated").truthy
  reason : value.reason = data.member "deprecationReason"

/-- The names of the objects that are listed under a key. -/
def NamesListed (names : List Value) (key : String) (data : Value) : Prop :=
  ∃ items, data.Lists key items ∧
    List.Forall₂ (fun name item => Value.Has item "name" name) names items

def FieldsListed (fields : List Field) (data : Value) : Prop :=
  ∃ items, data.Lists "fields" items ∧ List.Forall₂ Field.DescribedBy fields items

namespace TypeBody

def kindWord : TypeBody → String
  | .scalar => "SCALAR"
  | .object .. => "OBJECT"
  | .interface .. => "INTERFACE"
  | .union _ => "UNION"
  | .enum _ => "ENUM"
  | .inputObject _ => "INPUT_OBJECT"

/-- The data lists the members, each under the key for members of that kind. -/
def DescribedBy : TypeBody → Value → Prop
  | .scalar, _ => True
  | .object interfaces fields, data | .interface interfaces fields, data =>
    NamesListed interfaces "interfaces" data ∧ FieldsListed fields data
  | .union members, data => NamesListed members "possibleTypes" data
  | .enum values, data => ∃ items, data.Lists "enumValues" items ∧
    List.Forall₂ EnumValue.DescribedBy values items
  | .inputObject fields, data => ∃ items, data.Lists "inputFields" items ∧
    List.Forall₂ InputValue.DescribedBy fields items

end TypeBody

structure TypeDef.DescribedBy (type : TypeDef) (data : Value) : Prop where
  kind : data.Has "kind" (.str type.body.kindWord)
  name : data.Has "name" type.name
  description : type.description = data.member "description"
  members : type.body.DescribedBy data

theorem inputValue_eq_ok {context : String} {data : Value} {value : InputValue} :
    inputValue context data = .ok value ↔ value.DescribedBy data := by
  simp only [inputValue, bind_eq_ok, pure_eq_ok, required_eq_ok, typeRef_eq_ok]
  constructor
  · rintro ⟨name, hn, type, ht, rfl⟩
    exact ⟨hn, ht, rfl, rfl⟩
  · rintro ⟨hn, ht, hd, hv⟩
    exact ⟨_, hn, _, ht, by rw [← hd, ← hv]⟩

theorem field_eq_ok {typeName data : Value} {f : Field} :
    field typeName data = .ok f ↔ f.DescribedBy data := by
  simp only [field, bind_eq_ok, pure_eq_ok, required_eq_ok, typeRef_eq_ok, optionalList_eq_ok,
    mapM_eq_ok, inputValue_eq_ok]
  constructor
  · rintro ⟨name, hn, type, ht, items, hi, arguments, ha, rfl⟩
    exact ⟨hn, ht, rfl, ⟨items, hi, ha⟩, rfl, rfl⟩
  · rintro ⟨hn, ht, hd, ⟨items, hi, ha⟩, hdep, hr⟩
    exact ⟨_, hn, _, ht, items, hi, _, ha, by rw [← hd, ← hdep, ← hr]⟩

theorem enumValue_eq_ok {typeName data : Value} {value : EnumValue} :
    enumValue typeName data = .ok value ↔ value.DescribedBy data := by
  simp only [enumValue, bind_eq_ok, pure_eq_ok, required_eq_ok]
  constructor
  · rintro ⟨name, hn, rfl⟩
    exact ⟨hn, rfl, rfl, rfl⟩
  · rintro ⟨hn, hd, hdep, hr⟩
    exact ⟨_, hn, by rw [← hd, ← hdep, ← hr]⟩

theorem referencedNames_eq_ok {typeName data : Value} {key : String} {names : List Value} :
    referencedNames typeName key data = .ok names ↔ NamesListed names key data := by
  simp only [referencedNames, bind_eq_ok, optionalList_eq_ok, mapM_eq_ok, required_eq_ok,
    NamesListed]

theorem fields_eq_ok {typeName data : Value} {fs : List Field} :
    fields typeName data = .ok fs ↔ FieldsListed fs data := by
  simp only [fields, bind_eq_ok, optionalList_eq_ok, mapM_eq_ok, field_eq_ok, FieldsListed]

theorem typeBody?_eq_some_ok {word : String} {typeName data : Value} {body : TypeBody} :
    typeBody? word typeName data = some (.ok body) ↔
      body.kindWord = word ∧ body.DescribedBy data := by
  constructor
  · intro h
    unfold typeBody? at h
    split at h
    case h_7 => simp at h
    all_goals
      simp only [Option.some.injEq, bind_eq_ok, pure_eq_ok, Except.ok.injEq, referencedNames_eq_ok,
        fields_eq_ok, optionalList_eq_ok, mapM_eq_ok, enumValue_eq_ok, inputValue_eq_ok] at h
    case h_1 => exact h ▸ ⟨rfl, trivial⟩
    case h_2 | h_3 =>
      obtain ⟨interfaces, hi, fields, hf, rfl⟩ := h
      exact ⟨rfl, hi, hf⟩
    case h_4 =>
      obtain ⟨members, hm, rfl⟩ := h
      exact ⟨rfl, hm⟩
    case h_5 | h_6 =>
      obtain ⟨items, hi, members, hm, rfl⟩ := h
      exact ⟨rfl, items, hi, hm⟩
  · rintro ⟨rfl, h⟩
    cases body with
    | scalar => rfl
    | object interfaces fields | interface interfaces fields =>
      simp only [TypeBody.kindWord, typeBody?, Option.some.injEq, bind_eq_ok, pure_eq_ok,
        referencedNames_eq_ok, fields_eq_ok]
      exact ⟨_, h.1, _, h.2, rfl⟩
    | union members =>
      simp only [TypeBody.kindWord, typeBody?, Option.some.injEq, bind_eq_ok, pure_eq_ok,
        referencedNames_eq_ok]
      exact ⟨_, h, rfl⟩
    | enum values =>
      simp only [TypeBody.kindWord, typeBody?, Option.some.injEq, bind_eq_ok, pure_eq_ok,
        optionalList_eq_ok, mapM_eq_ok, enumValue_eq_ok]
      obtain ⟨items, hi, hm⟩ := h
      exact ⟨items, hi, _, hm, rfl⟩
    | inputObject fields =>
      simp only [TypeBody.kindWord, typeBody?, Option.some.injEq, bind_eq_ok, pure_eq_ok,
        optionalList_eq_ok, mapM_eq_ok, inputValue_eq_ok]
      obtain ⟨items, hi, hm⟩ := h
      exact ⟨items, hi, _, hm, rfl⟩

/-- With its kind and its name at hand, an object is read to the declarations it describes. -/
theorem typeDef_eq_ok {name kind data : Value} {type : TypeDef} (hk : data.Has "kind" kind)
    (hn : data.Has "name" name) :
    typeDef name kind data = .ok type ↔ type.DescribedBy data := by
  unfold typeDef
  constructor
  · intro h
    split at h
    · simp at h
    split at h
    · rename_i word
      split at h
      · rename_i body hb
        obtain ⟨found, hf, h⟩ := bind_eq_ok.mp h
        cases h
        subst hf
        obtain ⟨hw, hd⟩ := typeBody?_eq_some_ok.mp hb
        exact ⟨hw ▸ hk, hn, rfl, hd⟩
      · simp [refuse] at h
    · simp [refuse] at h
  · rintro ⟨hk', hn', hd, hb⟩
    have hkind : kind = .str type.body.kindWord := hk.found.symm.trans hk'.found
    have hname : name = type.name := hn.found.symm.trans hn'.found
    subst hkind hname
    have hbody : typeBody? type.body.kindWord type.name data = some (.ok type.body) :=
      typeBody?_eq_some_ok.mpr ⟨rfl, hb⟩
    simp only [Value.hashable, Bool.not_true, Bool.false_eq_true, if_false, hbody, ok_bind]
    rw [← hd]
    rfl

end SchemaScribe
