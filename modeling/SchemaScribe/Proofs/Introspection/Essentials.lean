import SchemaScribe.Proofs.Introspection.References

/-! # What is read of a result

The essentials of a result are, at each place, the members that are read there: null ones left out,
the lists that may be missing put in, and deprecation as a truth value. A schema is built from a
result exactly if it is built from the essentials. So nothing else is read, and null is read as a
member that is missing.
-/
namespace SchemaScribe
open Introspection Success

namespace Value

/-- The object with those members in place of its own, but for null ones. What is no object stays as
it is. -/
def rebuilt (members : Value → List (String × Value)) (data : Value) : Value :=
  if data.isDict then .object ((members data).filter fun member => !member.2.isNull) else data

/-- A list with its items replaced. -/
def eachItem (f : Value → Value) : Value → Value
  | .list items => .list (items.map f)
  | v => v

/-- The empty list in place of null. -/
def orEmpty : Value → Value
  | .null => .list []
  | v => v

end Value

namespace Introspection

/-! ## Essentials -/

/-- Is it the kind of a modifier? -/
def isModifierKind (kind : Value) : Bool := kind.same (.str "LIST") || kind.same (.str "NON_NULL")

/-- The members that are read of a level of a type reference: the kind, and the next level in a
modifier but the name in any other one. -/
def refReads (inner : Value → Value) (data : Value) : List (String × Value) :=
  if isModifierKind (data.member "kind") then
    [("kind", data.member "kind"), ("ofType", inner (data.member "ofType"))]
  else [("kind", data.member "kind"), ("name", data.member "name")]

/-- The essentials of a type reference of at most so many levels. Nothing is read below them. -/
def refEssentials : Nat → Value → Value
  | 0, _ => .null
  | levels + 1, data => data.rebuilt (refReads (refEssentials levels))

/-- What is listed under a key, if only nothing, with the members that are read of each item. -/
def listed (key : String) (members : Value → List (String × Value)) (data : Value) :
    String × Value :=
  (key, ((data.member key).eachItem (.rebuilt members)).orEmpty)

def nameReads (data : Value) : List (String × Value) := [("name", data.member "name")]

def inputReads (data : Value) : List (String × Value) :=
  [("name", data.member "name"), ("description", data.member "description"),
   ("type", refEssentials maxLevels (data.member "type")),
   ("defaultValue", data.member "defaultValue")]

def fieldReads (data : Value) : List (String × Value) :=
  [("name", data.member "name"), ("description", data.member "description"),
   listed "args" inputReads data, ("type", refEssentials maxLevels (data.member "type")),
   ("isDeprecated", .bool (data.member "isDeprecated").truthy),
   ("deprecationReason", data.member "deprecationReason")]

def enumValueReads (data : Value) : List (String × Value) :=
  [("name", data.member "name"), ("description", data.member "description"),
   ("isDeprecated", .bool (data.member "isDeprecated").truthy),
   ("deprecationReason", data.member "deprecationReason")]

/-- The members that are read of a type of the kind that is written so, beside kind and name. -/
def kindReads (word : String) (data : Value) : List (String × Value) :=
  let described := ("description", data.member "description")
  match word with
  | "SCALAR" => [described]
  | "OBJECT" | "INTERFACE" =>
    [described, listed "interfaces" nameReads data, listed "fields" fieldReads data]
  | "UNION" => [described, listed "possibleTypes" nameReads data]
  | "ENUM" => [described, listed "enumValues" enumValueReads data]
  | "INPUT_OBJECT" => [described, listed "inputFields" inputReads data]
  | _ => []

/-- The members that are read of an entry. A type of the introspection system has none but its kind
and its name. -/
def entryReads (data : Value) : List (String × Value) :=
  [("kind", data.member "kind"), ("name", data.member "name")] ++
    match isDeclared data, data.member "kind" with
    | true, .str word => kindReads word data
    | _, _ => []

def schemaReads (data : Value) : List (String × Value) :=
  [("queryType", (data.member "queryType").rebuilt nameReads),
   ("mutationType", (data.member "mutationType").rebuilt nameReads),
   ("subscriptionType", (data.member "subscriptionType").rebuilt nameReads),
   ("types", (data.member "types").eachItem (.rebuilt entryReads))]

/-- The essentials of a `__schema` object. -/
def essentials (data : Value) : Value := data.rebuilt schemaReads

/-! ## Members of what is rebuilt -/

theorem lookup_filter_present {members : List (String × Value)} (key : String)
    (hn : (members.map Prod.fst).Nodup) :
    ((members.filter fun member => !member.2.isNull).lookup key).getD .null =
      (members.lookup key).getD .null := by
  induction members with
  | nil => rfl
  | cons member members ih =>
    obtain ⟨name, value⟩ := member
    rw [List.map_cons, List.nodup_cons] at hn
    obtain ⟨hnew, hrest⟩ := hn
    have hih := ih hrest
    cases hv : value.isNull with
    | false =>
      rw [List.filter_cons_of_pos (by simp [hv]), List.lookup_cons, List.lookup_cons]
      cases hk : key == name with
      | true => rfl
      | false => exact hih
    | true =>
      have hnull : value = .null := by cases value <;> simp_all [Value.isNull]
      rw [List.filter_cons_of_neg (by simp [hv]), hih, List.lookup_cons]
      cases hk : key == name with
      | false => rfl
      | true =>
        -- The name does not stand for another member behind the one that is null.
        have hnone : members.lookup key = none := by
          rw [List.lookup_eq_none_iff]
          intro other ho
          rw [eq_of_beq hk]
          have hne : name ≠ other.1 := fun h => hnew (h ▸ List.mem_map.mpr ⟨other, ho, rfl⟩)
          simpa using hne
        rw [hnone, hnull]
        rfl

section Rebuilt
variable {members : Value → List (String × Value)} {data : Value} {key : String}

theorem rebuilt_of_not_dict (h : data.isDict = false) : data.rebuilt members = data := by
  simp [Value.rebuilt, h]

theorem isDict_rebuilt : (data.rebuilt members).isDict = data.isDict := by
  unfold Value.rebuilt
  split
  · rename_i h
    rw [h]
    rfl
  · rfl

theorem member_of_not_dict (h : data.isDict = false) : data.member key = .null := by
  cases data <;> simp_all [Value.isDict, Value.member]

theorem member_rebuilt_dict (hd : data.isDict = true) (hn : ((members data).map Prod.fst).Nodup) :
    (data.rebuilt members).member key = ((members data).lookup key).getD .null := by
  rw [Value.rebuilt, if_pos hd, Value.member_object, lookup_filter_present key hn]

/-- A member that is kept as a function of what it was, null as null. -/
theorem member_rebuilt {f : Value → Value} (hn : ((members data).map Prod.fst).Nodup)
    (hf : f .null = .null) (hk : (members data).lookup key = some (f (data.member key))) :
    (data.rebuilt members).member key = f (data.member key) := by
  cases hd : data.isDict with
  | true => rw [member_rebuilt_dict hd hn, hk, Option.getD_some]
  | false => rw [rebuilt_of_not_dict hd, member_of_not_dict hd, hf]

theorem member_rebuilt_same (hn : ((members data).map Prod.fst).Nodup)
    (hk : (members data).lookup key = some (data.member key)) :
    (data.rebuilt members).member key = data.member key := by
  have hid : id Value.null = .null := rfl
  exact member_rebuilt hn hid hk

theorem has_rebuilt (hn : ((members data).map Prod.fst).Nodup)
    (hk : (members data).lookup key = some (data.member key)) {value : Value} :
    (data.rebuilt members).Has key value ↔ data.Has key value := by
  have hm := member_rebuilt_same hn hk
  constructor
  · rintro ⟨hd, hf, hp⟩
    exact ⟨isDict_rebuilt ▸ hd, hm ▸ hf, hp⟩
  · rintro ⟨hd, hf, hp⟩
    exact ⟨isDict_rebuilt.trans hd, hm.trans hf, hp⟩

theorem truthy_rebuilt (hn : ((members data).map Prod.fst).Nodup)
    (hk : (members data).lookup key = some (.bool (data.member key).truthy)) :
    ((data.rebuilt members).member key).truthy = (data.member key).truthy := by
  cases hd : data.isDict with
  | true => rw [member_rebuilt_dict hd hn, hk, Option.getD_some, Value.truthy]
  | false => rw [rebuilt_of_not_dict hd]

/-- What is listed under a key is described item by item. -/
theorem exists_listed_iff {α : Type} {R : α → Value → Prop}
    {inner : Value → List (String × Value)} (hR : ∀ a item, R a (item.rebuilt inner) ↔ R a item)
    (hn : ((members data).map Prod.fst).Nodup)
    (hk : (members data).lookup key = some (listed key inner data).2) {found : List α} :
    (∃ items, (data.rebuilt members).Lists key items ∧ List.Forall₂ R found items) ↔
      ∃ items, data.Lists key items ∧ List.Forall₂ R found items := by
  cases hd : data.isDict with
  | false => rw [rebuilt_of_not_dict hd]
  | true =>
    have hm : (data.rebuilt members).member key =
        ((data.member key).eachItem (.rebuilt inner)).orEmpty := by
      rw [member_rebuilt_dict hd hn, hk, Option.getD_some, listed]
    have hitems : ∀ items : List Value,
        List.Forall₂ R found (items.map (.rebuilt inner)) ↔ List.Forall₂ R found items := by
      intro items
      simp only [List.forall₂_map_right_iff, hR]
    constructor
    · rintro ⟨items, ⟨-, hf⟩, hdesc⟩
      rw [hm] at hf
      cases hv : data.member key with
      | null =>
        rw [hv] at hf
        obtain rfl : [] = items := by simpa [Value.eachItem, Value.orEmpty] using hf
        exact ⟨[], ⟨hd, .inr ⟨hv, rfl⟩⟩, hdesc⟩
      | list old =>
        rw [hv] at hf
        obtain rfl : old.map (.rebuilt inner) = items := by
          simpa [Value.eachItem, Value.orEmpty] using hf
        exact ⟨old, ⟨hd, .inl hv⟩, (hitems old).mp hdesc⟩
      | _ => simp [hv, Value.eachItem, Value.orEmpty] at hf
    · rintro ⟨items, ⟨-, hf⟩, hdesc⟩
      refine ⟨items.map (.rebuilt inner), ⟨isDict_rebuilt.trans hd, .inl ?_⟩,
        (hitems items).mpr hdesc⟩
      rw [hm]
      rcases hf with hf | ⟨hf, rfl⟩
      · rw [hf]
        rfl
      · rw [hf]
        rfl

end Rebuilt

/-! ## Type references -/

section Levels
variable {levels : Nat} {data : Value}

theorem isModifierKind_iff {kind : Value} :
    isModifierKind kind = true ↔ kind = .str "LIST" ∨ kind = .str "NON_NULL" := by
  rw [isModifierKind, Bool.or_eq_true, Value.same_str_iff, Value.same_str_iff]

theorem nodup_refReads (inner : Value → Value) (data : Value) :
    ((refReads inner data).map Prod.fst).Nodup := by
  unfold refReads
  split <;> simp

theorem lookup_kind_refReads (inner : Value → Value) (data : Value) :
    (refReads inner data).lookup "kind" = some (data.member "kind") := by
  unfold refReads
  split <;> rfl

theorem has_kind_refEssentials {kind : Value} :
    (refEssentials (levels + 1) data).Has "kind" kind ↔ data.Has "kind" kind :=
  has_rebuilt (nodup_refReads _ data) (lookup_kind_refReads _ data)

theorem has_name_refEssentials {name : Value} (hk : isModifierKind (data.member "kind") = false) :
    (refEssentials (levels + 1) data).Has "name" name ↔ data.Has "name" name := by
  have hlookup : (refReads (refEssentials levels) data).lookup "name" =
      some (data.member "name") := by
    rw [refReads, if_neg (by simp [hk])]
    rfl
  exact has_rebuilt (nodup_refReads _ data) hlookup

theorem ofType_refEssentials (hk : isModifierKind (data.member "kind") = true) :
    (refEssentials (levels + 1) data).member "ofType" =
      refEssentials levels (data.member "ofType") := by
  have hnull : refEssentials levels .null = .null := by
    cases levels <;> rfl
  have hlookup : (refReads (refEssentials levels) data).lookup "ofType" =
      some (refEssentials levels (data.member "ofType")) := by
    rw [refReads, if_pos hk]
    rfl
  exact member_rebuilt (nodup_refReads _ data) hnull hlookup

theorem spelledBy_refEssentials {type : TypeRef} (hd : type.depth < levels) :
    type.SpelledBy (refEssentials levels data) ↔ type.SpelledBy data := by
  induction levels generalizing type data with
  | zero => exact absurd hd (Nat.not_lt_zero _)
  | succ levels ih =>
    cases type with
    | named name =>
      simp only [TypeRef.SpelledBy, has_kind_refEssentials]
      refine and_congr_right ?_
      rintro ⟨kind, hk, -, hl, hn⟩
      have hleaf : isModifierKind (data.member "kind") = false := by
        rw [hk.found, ← Bool.not_eq_true, isModifierKind_iff]
        exact not_or.mpr ⟨hl, hn⟩
      exact has_name_refEssentials hleaf
    | list item | nonNull item =>
      simp only [TypeRef.SpelledBy, has_kind_refEssentials]
      refine and_congr_right ?_
      intro hk
      have hmodifier : isModifierKind (data.member "kind") = true := by
        rw [hk.found, isModifierKind_iff]
        simp
      rw [ofType_refEssentials hmodifier]
      exact ih (Nat.lt_of_succ_lt_succ hd)

theorem describedBy_refEssentials {type : TypeRef} :
    type.DescribedBy (refEssentials maxLevels data) ↔ type.DescribedBy data := by
  constructor
  · rintro ⟨hs, hd, hw⟩
    exact ⟨(spelledBy_refEssentials hd).mp hs, hd, hw⟩
  · rintro ⟨hs, hd, hw⟩
    exact ⟨(spelledBy_refEssentials hd).mpr hs, hd, hw⟩

end Levels

/-! ## Members -/

section Members
variable {data : Value}

theorem has_name_rebuilt {name : Value} :
    (data.rebuilt nameReads).Has "name" name ↔ data.Has "name" name := by
  have hn : ((nameReads data).map Prod.fst).Nodup := by simp [nameReads]
  exact has_rebuilt hn rfl

theorem inputValue_rebuilt {value : InputValue} :
    value.DescribedBy (data.rebuilt inputReads) ↔ value.DescribedBy data := by
  have hn : ((inputReads data).map Prod.fst).Nodup := by simp [inputReads]
  have htype : (data.rebuilt inputReads).member "type" =
      refEssentials maxLevels (data.member "type") := member_rebuilt hn rfl rfl
  have hdescription : (data.rebuilt inputReads).member "description" =
      data.member "description" := member_rebuilt_same hn rfl
  have hdefault : (data.rebuilt inputReads).member "defaultValue" =
      data.member "defaultValue" := member_rebuilt_same hn rfl
  constructor
  · rintro ⟨hname, ht, hd, hv⟩
    rw [htype] at ht
    exact ⟨(has_rebuilt hn rfl).mp hname, describedBy_refEssentials.mp ht, hd.trans hdescription,
      hv.trans hdefault⟩
  · rintro ⟨hname, ht, hd, hv⟩
    refine ⟨(has_rebuilt hn rfl).mpr hname, ?_, hd.trans hdescription.symm, hv.trans hdefault.symm⟩
    rw [htype]
    exact describedBy_refEssentials.mpr ht

theorem field_rebuilt {field : Field} :
    field.DescribedBy (data.rebuilt fieldReads) ↔ field.DescribedBy data := by
  have hn : ((fieldReads data).map Prod.fst).Nodup := by simp [fieldReads, listed]
  have htype : (data.rebuilt fieldReads).member "type" =
      refEssentials maxLevels (data.member "type") := member_rebuilt hn rfl rfl
  have hdescription : (data.rebuilt fieldReads).member "description" =
      data.member "description" := member_rebuilt_same hn rfl
  have hreason : (data.rebuilt fieldReads).member "deprecationReason" =
      data.member "deprecationReason" := member_rebuilt_same hn rfl
  have hdeprecated : ((data.rebuilt fieldReads).member "isDeprecated").truthy =
      (data.member "isDeprecated").truthy := truthy_rebuilt hn rfl
  have harguments :
      (∃ items, (data.rebuilt fieldReads).Lists "args" items ∧
        List.Forall₂ InputValue.DescribedBy field.arguments items) ↔
      ∃ items, data.Lists "args" items ∧
        List.Forall₂ InputValue.DescribedBy field.arguments items :=
    exists_listed_iff (fun _ _ => inputValue_rebuilt) hn rfl
  constructor
  · rintro ⟨hname, ht, hd, ha, hdep, hr⟩
    rw [htype] at ht
    exact ⟨(has_rebuilt hn rfl).mp hname, describedBy_refEssentials.mp ht, hd.trans hdescription,
      harguments.mp ha, hdep.trans hdeprecated, hr.trans hreason⟩
  · rintro ⟨hname, ht, hd, ha, hdep, hr⟩
    refine ⟨(has_rebuilt hn rfl).mpr hname, ?_, hd.trans hdescription.symm, harguments.mpr ha,
      hdep.trans hdeprecated.symm, hr.trans hreason.symm⟩
    rw [htype]
    exact describedBy_refEssentials.mpr ht

theorem enumValue_rebuilt {value : EnumValue} :
    value.DescribedBy (data.rebuilt enumValueReads) ↔ value.DescribedBy data := by
  have hn : ((enumValueReads data).map Prod.fst).Nodup := by simp [enumValueReads]
  have hdescription : (data.rebuilt enumValueReads).member "description" =
      data.member "description" := member_rebuilt_same hn rfl
  have hreason : (data.rebuilt enumValueReads).member "deprecationReason" =
      data.member "deprecationReason" := member_rebuilt_same hn rfl
  have hdeprecated : ((data.rebuilt enumValueReads).member "isDeprecated").truthy =
      (data.member "isDeprecated").truthy := truthy_rebuilt hn rfl
  constructor
  · rintro ⟨hname, hd, hdep, hr⟩
    exact ⟨(has_rebuilt hn rfl).mp hname, hd.trans hdescription, hdep.trans hdeprecated,
      hr.trans hreason⟩
  · rintro ⟨hname, hd, hdep, hr⟩
    exact ⟨(has_rebuilt hn rfl).mpr hname, hd.trans hdescription.symm, hdep.trans hdeprecated.symm,
      hr.trans hreason.symm⟩

end Members

/-! ## Entries -/

section Entries
variable {data : Value}

theorem nodup_entryReads (data : Value) : ((entryReads data).map Prod.fst).Nodup := by
  unfold entryReads
  split
  · unfold kindReads
    split <;> simp [listed]
  · simp

theorem entryName_rebuilt (data : Value) : entryName (data.rebuilt entryReads) = entryName data :=
  member_rebuilt_same (nodup_entryReads data) rfl

theorem map_entryName_rebuilt (items : List Value) :
    (items.map (.rebuilt entryReads)).map entryName = items.map entryName := by
  rw [List.map_map]
  exact List.map_congr_left fun data _ => entryName_rebuilt data

theorem isDeclared_rebuilt (data : Value) :
    isDeclared (data.rebuilt entryReads) = isDeclared data := by
  rw [isDeclared, entryName_rebuilt, isDeclared]

theorem isEntry_rebuilt : IsEntry (data.rebuilt entryReads) ↔ IsEntry data := by
  have hn := nodup_entryReads data
  have hkind : ∀ kind, (data.rebuilt entryReads).Has "kind" kind ↔ data.Has "kind" kind :=
    fun _ => has_rebuilt hn rfl
  have hname : ∀ name, (data.rebuilt entryReads).Has "name" name ↔ data.Has "name" name :=
    fun _ => has_rebuilt hn rfl
  constructor
  · rintro ⟨⟨kind, hk⟩, name, ht, hn⟩
    exact ⟨⟨kind, (hkind _).mp hk⟩, name, ht, (hname _).mp hn⟩
  · rintro ⟨⟨kind, hk⟩, name, ht, hn⟩
    exact ⟨⟨kind, (hkind _).mpr hk⟩, name, ht, (hname _).mpr hn⟩

theorem lookup_entryReads {word key : String} {value : Value} (hd : isDeclared data = true)
    (hk : data.Has "kind" (.str word)) (hkind : key ≠ "kind") (hname : key ≠ "name")
    (hl : (kindReads word data).lookup key = some value) :
    (entryReads data).lookup key = some value := by
  have hmembers : entryReads data =
      ("kind", data.member "kind") :: ("name", data.member "name") :: kindReads word data := by
    rw [entryReads, hd, hk.found]
    rfl
  have hfirst : (key == "kind") = false := beq_eq_false_iff_ne.mpr hkind
  have hsecond : (key == "name") = false := beq_eq_false_iff_ne.mpr hname
  rw [hmembers, List.lookup_cons, hfirst, List.lookup_cons, hsecond]
  exact hl

/-- What is listed under a key of an entry is described item by item. -/
theorem exists_listed_entry_iff {α : Type} {R : α → Value → Prop}
    {inner : Value → List (String × Value)} {word key : String}
    (hR : ∀ a item, R a (item.rebuilt inner) ↔ R a item) (hd : isDeclared data = true)
    (hk : data.Has "kind" (.str word)) (hkind : key ≠ "kind") (hname : key ≠ "name")
    (hl : (kindReads word data).lookup key = some (listed key inner data).2) {found : List α} :
    (∃ items, (data.rebuilt entryReads).Lists key items ∧ List.Forall₂ R found items) ↔
      ∃ items, data.Lists key items ∧ List.Forall₂ R found items :=
  exists_listed_iff hR (nodup_entryReads data) (lookup_entryReads hd hk hkind hname hl)

theorem body_rebuilt {body : TypeBody} (hd : isDeclared data = true)
    (hk : data.Has "kind" (.str body.kindWord)) :
    body.DescribedBy (data.rebuilt entryReads) ↔ body.DescribedBy data := by
  cases body with
  | scalar => exact Iff.rfl
  | object interfaces fields | interface interfaces fields =>
    exact and_congr
      (exists_listed_entry_iff (fun _ _ => has_name_rebuilt) hd hk (by simp) (by simp) rfl)
      (exists_listed_entry_iff (fun _ _ => field_rebuilt) hd hk (by simp) (by simp) rfl)
  | union members =>
    exact exists_listed_entry_iff (fun _ _ => has_name_rebuilt) hd hk (by simp) (by simp) rfl
  | enum values =>
    exact exists_listed_entry_iff (fun _ _ => enumValue_rebuilt) hd hk (by simp) (by simp) rfl
  | inputObject fields =>
    exact exists_listed_entry_iff (fun _ _ => inputValue_rebuilt) hd hk (by simp) (by simp) rfl

theorem lookup_description_kindReads (body : TypeBody) (data : Value) :
    (kindReads body.kindWord data).lookup "description" = some (data.member "description") := by
  cases body <;> rfl

theorem typeDef_rebuilt {type : TypeDef} (hd : isDeclared data = true) :
    type.DescribedBy (data.rebuilt entryReads) ↔ type.DescribedBy data := by
  have hn := nodup_entryReads data
  have hkind : (data.rebuilt entryReads).Has "kind" (.str type.body.kindWord) ↔
      data.Has "kind" (.str type.body.kindWord) := has_rebuilt hn rfl
  have hname : (data.rebuilt entryReads).Has "name" type.name ↔ data.Has "name" type.name :=
    has_rebuilt hn rfl
  -- The other members are kept by the kind.
  have hdescription : data.Has "kind" (.str type.body.kindWord) →
      (data.rebuilt entryReads).member "description" = data.member "description" := fun hk =>
    member_rebuilt_same hn <| lookup_entryReads hd hk (by simp) (by simp)
      (lookup_description_kindReads type.body data)
  constructor
  · rintro ⟨hk, ht, hdesc, hb⟩
    have hk' := hkind.mp hk
    exact ⟨hk', hname.mp ht, hdesc.trans (hdescription hk'), (body_rebuilt hd hk').mp hb⟩
  · rintro ⟨hk, ht, hdesc, hb⟩
    exact ⟨hkind.mpr hk, hname.mpr ht, hdesc.trans (hdescription hk).symm,
      (body_rebuilt hd hk).mpr hb⟩

theorem described_rebuilt {types : List TypeDef} {items : List Value}
    (hd : ∀ data ∈ items, isDeclared data = true) :
    List.Forall₂ TypeDef.DescribedBy types (items.map (.rebuilt entryReads)) ↔
      List.Forall₂ TypeDef.DescribedBy types items := by
  induction items generalizing types with
  | nil => exact Iff.rfl
  | cons data items ih =>
    obtain ⟨hfirst, hrest⟩ := List.forall_mem_cons.mp hd
    rw [List.map_cons, List.forall₂_cons_right_iff, List.forall₂_cons_right_iff]
    simp only [typeDef_rebuilt hfirst, ih hrest]

end Entries

/-! ## The whole result -/

section Schema
variable {data : Value}

theorem nodup_schemaReads (data : Value) : ((schemaReads data).map Prod.fst).Nodup := by
  simp [schemaReads]

theorem rootNamed_essentials {key : String} {root : Value}
    (hk : (schemaReads data).lookup key = some ((data.member key).rebuilt nameReads)) :
    RootNamed (essentials data) key root ↔ RootNamed data key root := by
  have hm : (essentials data).member key = (data.member key).rebuilt nameReads :=
    member_rebuilt (nodup_schemaReads data) rfl hk
  constructor
  · intro h
    cases h with
    | missing hn =>
      refine .missing ?_
      rw [hm] at hn
      unfold Value.rebuilt at hn
      split at hn
      · cases hn
      · exact hn
    | named hn => exact .named (has_name_rebuilt.mp (hm ▸ hn))
  · intro h
    cases h with
    | missing hn => exact .missing (by rw [hm, hn]; rfl)
    | named hn => exact .named (by rw [hm]; exact has_name_rebuilt.mpr hn)

theorem types_essentials {items : List Value} :
    (essentials data).Has "types" (.list items) ↔
      ∃ old, data.Has "types" (.list old) ∧ items = old.map (.rebuilt entryReads) := by
  have hm : (essentials data).member "types" =
      (data.member "types").eachItem (.rebuilt entryReads) :=
    member_rebuilt (nodup_schemaReads data) rfl rfl
  constructor
  · rintro ⟨hd, hf, -⟩
    have hdict : data.isDict = true := isDict_rebuilt ▸ hd
    rw [hm] at hf
    cases hv : data.member "types" with
    | list old =>
      rw [hv] at hf
      exact ⟨old, ⟨hdict, hv, by simp⟩, (Value.list.inj hf).symm⟩
    | _ => simp [hv, Value.eachItem] at hf
  · rintro ⟨old, ⟨hd, hf, -⟩, rfl⟩
    refine ⟨isDict_rebuilt.trans hd, ?_, by simp⟩
    rw [hm, hf]
    rfl

end Schema

/-- A result that is nothing but a `__schema` object. -/
def bare (data : Value) : Value := .object [("__schema", data)]

section Essentials
variable {result data : Value} {schema : Schema}

theorem envelope_essentials (henv : Envelope result data) :
    Envelope (bare (essentials data)) (essentials data) := by
  cases henv <;> exact .bare rfl

/-- An outline of the essentials is one of the result, with the same names of entries. -/
theorem outline_essentials (henv : Envelope result data) {items : List Value} :
    Outline (bare (essentials data)) (items.map (.rebuilt entryReads)) schema ∧
        data.Has "types" (.list items) ↔
      Outline result items schema := by
  have hnames := map_entryName_rebuilt items
  have hfilter : (items.map (.rebuilt entryReads)).filter isDeclared =
      (items.filter isDeclared).map (.rebuilt entryReads) := by
    rw [List.filter_map]
    exact congrArg _ (List.filter_congr fun data _ => isDeclared_rebuilt data)
  have hdescribed : List.Forall₂ TypeDef.DescribedBy schema.types
        ((items.map (.rebuilt entryReads)).filter isDeclared) ↔
      List.Forall₂ TypeDef.DescribedBy schema.types (items.filter isDeclared) := by
    rw [hfilter]
    exact described_rebuilt fun data hd => (List.mem_filter.mp hd).2
  constructor
  · rintro ⟨⟨⟨found, hfound, -, hq, hm, hs⟩, hent, hnodup, hdesc⟩, hlist⟩
    obtain rfl := hfound.unique (envelope_essentials henv)
    refine ⟨⟨data, henv, hlist, (rootNamed_essentials rfl).mp hq, (rootNamed_essentials rfl).mp hm,
      (rootNamed_essentials rfl).mp hs⟩, ?_, hnames ▸ hnodup, hdescribed.mp hdesc⟩
    intro entry he
    exact isEntry_rebuilt.mp (hent _ (List.mem_map.mpr ⟨entry, he, rfl⟩))
  · rintro ⟨⟨found, hfound, hlist, hq, hm, hs⟩, hent, hnodup, hdesc⟩
    obtain rfl := hfound.unique henv
    have hlists : (essentials found).Has "types" (.list (items.map (.rebuilt entryReads))) :=
      types_essentials.mpr ⟨items, hlist, rfl⟩
    refine ⟨⟨⟨_, envelope_essentials henv, hlists, (rootNamed_essentials rfl).mpr hq,
      (rootNamed_essentials rfl).mpr hm, (rootNamed_essentials rfl).mpr hs⟩, ?_,
      hnames.symm ▸ hnodup, hdescribed.mpr hdesc⟩, hlist⟩
    intro entry he
    obtain ⟨old, ho, rfl⟩ := List.mem_map.mp he
    exact isEntry_rebuilt.mpr (hent old ho)

/-- A schema is built from a result exactly if it is built from the essentials of the result. -/
theorem build_essentials (henv : Envelope result data) :
    build (bare (essentials data)) = .ok schema ↔ build result = .ok schema := by
  rw [build_eq_ok, build_eq_ok]
  constructor
  · rintro ⟨found, ho, hknown⟩
    obtain ⟨inner, hinner, hlist, -⟩ := ho.exists_data
    obtain rfl := hinner.unique (envelope_essentials henv)
    obtain ⟨items, hitems, rfl⟩ := types_essentials.mp hlist
    rw [map_entryName_rebuilt] at hknown
    exact ⟨items, (outline_essentials henv).mp ⟨ho, hitems⟩, hknown⟩
  · rintro ⟨items, ho, hknown⟩
    refine ⟨items.map (.rebuilt entryReads), ((outline_essentials henv).mpr ho).1, ?_⟩
    rw [map_entryName_rebuilt]
    exact hknown

/-- Results that have the same essentials are built to the same schema, or none of them is built.
So it does not matter how a result is wrapped, which other members stand in it, whether a member is
null or missing, nor how it says that something is deprecated. -/
theorem build_of_essentials_eq {other otherData : Value} (henv : Envelope result data)
    (hother : Envelope other otherData) (he : essentials data = essentials otherData)
    (schema : Schema) : build result = .ok schema ↔ build other = .ok schema := by
  rw [← build_essentials henv, ← build_essentials hother, he]

end Essentials

/-- A result that says no more than it must. -/
def terseData : Value :=
  .object [("queryType", .object [("name", .str "Query")]),
    ("types", .list [
      .object [("kind", .str "OBJECT"), ("name", .str "Query"), ("fields", .list [
        .object [("name", .str "lamp"), ("isDeprecated", .bool true),
          ("type", .object [("kind", .str "NON_NULL"),
            ("ofType", .object [("kind", .str "SCALAR"), ("name", .str "Lamp")])])]])],
      .object [("kind", .str "SCALAR"), ("name", .str "Lamp")],
      .object [("kind", .str "OBJECT"), ("name", .str "__Type")]])]

/-- The same result from a server that gives every member and some of its own. -/
def verboseData : Value :=
  .object [("description", .str "Lamps."), ("directives", .list [.null]),
    ("types", .list [
      .object [("name", .str "Query"), ("kind", .str "OBJECT"), ("description", .null),
        ("interfaces", .null), ("possibleTypes", .int 3), ("fields", .list [
          .object [("args", .null), ("name", .str "lamp"), ("cost", .int 2),
            ("type", .object [("kind", .str "NON_NULL"), ("name", .str "Lamp!"),
              ("ofType", .object [("kind", .str "SCALAR"), ("name", .str "Lamp"),
                ("ofType", .str "")])]),
            ("isDeprecated", .int 1), ("deprecationReason", .null)]])],
      .object [("kind", .str "SCALAR"), ("name", .str "Lamp"), ("specifiedByURL", .str "urn:lamp"),
        ("fields", .bool false)],
      .object [("kind", .str "OBJECT"), ("name", .str "__Type"), ("fields", .int 0)]]),
    ("queryType", .object [("name", .str "Query"), ("kind", .str "OBJECT")]),
    ("mutationType", .null)]

theorem build_of_essentials_eq_verbose :
    Envelope (bare terseData) terseData ∧
    Envelope (.object [("data", bare verboseData)]) verboseData ∧
    essentials terseData = essentials verboseData ∧
    ∃ schema, build (.object [("data", bare verboseData)]) = .ok schema := by
  have hterse : Envelope (bare terseData) terseData := .bare rfl
  have hverbose : Envelope (.object [("data", bare verboseData)]) verboseData :=
    .response rfl rfl rfl
  have hsame : essentials terseData = essentials verboseData := rfl
  obtain ⟨schema, hbuilt⟩ : ∃ schema, build (bare terseData) = .ok schema := ⟨_, rfl⟩
  exact ⟨hterse, hverbose, hsame, schema,
    (build_of_essentials_eq hterse hverbose hsame schema).mp hbuilt⟩

end Introspection
end SchemaScribe
