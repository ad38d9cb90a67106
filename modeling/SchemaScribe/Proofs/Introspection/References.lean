import SchemaScribe.Proofs.Introspection.Outline

/-! # References of a schema

The places of a schema where the name of a type stands, and what happens to them when a schema is
built. A name that is no name of an entry stops the build, and the fault tells the first type in
order that has such names with all of them, or the first such root where every type is in order.
-/
namespace SchemaScribe

/-- The names that stand in a field: that of its type and those of the types of its arguments. -/
inductive Field.Mentions (field : Field) : Value → Prop
  | type : Mentions field field.type.innermost
  | argument {argument : InputValue} : argument ∈ field.arguments →
      Mentions field argument.type.innermost

/-- The names that stand in the members of a type. -/
inductive TypeBody.Mentions : TypeBody → Value → Prop
  | interfaceOfObject {interfaces : List Value} {fields : List Field} {name : Value} :
      name ∈ interfaces → Mentions (.object interfaces fields) name
  | fieldOfObject {interfaces : List Value} {fields : List Field} {field : Field} {name : Value} :
      field ∈ fields → field.Mentions name → Mentions (.object interfaces fields) name
  | interfaceOfInterface {interfaces : List Value} {fields : List Field} {name : Value} :
      name ∈ interfaces → Mentions (.interface interfaces fields) name
  | fieldOfInterface {interfaces : List Value} {fields : List Field} {field : Field}
      {name : Value} :
      field ∈ fields → field.Mentions name → Mentions (.interface interfaces fields) name
  | member {members : List Value} {name : Value} : name ∈ members → Mentions (.union members) name
  | inputField {fields : List InputValue} {field : InputValue} : field ∈ fields →
      Mentions (.inputObject fields) field.type.innermost

/-- The names that stand in a schema: those in the members of its types, and the roots. -/
inductive Schema.Mentions (schema : Schema) : Value → Prop
  | inType {type : TypeDef} {name : Value} : type ∈ schema.types → type.body.Mentions name →
      Mentions schema name
  | asRoot {root : Value} : root ∈ [schema.query, schema.mutation, schema.subscription] →
      root ≠ .null → Mentions schema root

theorem Field.mem_references_iff {field : Field} {name : Value} :
    name ∈ field.references ↔ field.Mentions name := by
  simp only [Field.references, List.mem_cons, List.mem_map]
  constructor
  · rintro (rfl | ⟨argument, ha, rfl⟩)
    · exact .type
    · exact .argument ha
  · rintro (_ | ha)
    · exact .inl rfl
    · exact .inr ⟨_, ha, rfl⟩

/-- The references that are collected from a type are all the names in its members. -/
theorem TypeBody.mem_references_iff {body : TypeBody} {name : Value} :
    name ∈ body.references ↔ body.Mentions name := by
  constructor
  · intro h
    cases body with
    | scalar | enum values => simp [TypeBody.references] at h
    | object interfaces fields =>
      simp only [TypeBody.references, List.mem_append, List.mem_flatMap,
        Field.mem_references_iff] at h
      rcases h with h | ⟨field, hf, h⟩
      · exact .interfaceOfObject h
      · exact .fieldOfObject hf h
    | interface interfaces fields =>
      simp only [TypeBody.references, List.mem_append, List.mem_flatMap,
        Field.mem_references_iff] at h
      rcases h with h | ⟨field, hf, h⟩
      · exact .interfaceOfInterface h
      · exact .fieldOfInterface hf h
    | union members => exact .member h
    | inputObject fields =>
      simp only [TypeBody.references, List.mem_map] at h
      obtain ⟨field, hf, rfl⟩ := h
      exact .inputField hf
  · intro h
    cases h with
    | interfaceOfObject h | interfaceOfInterface h => exact List.mem_append_left _ h
    | fieldOfObject hf h | fieldOfInterface hf h =>
      exact List.mem_append_right _ (List.mem_flatMap.mpr ⟨_, hf, Field.mem_references_iff.mpr h⟩)
    | member h => exact h
    | inputField h => exact List.mem_map.mpr ⟨_, h, rfl⟩

namespace Value

private theorem foldl_distinct_of_isString (done names : List Value)
    (ht : ∀ name ∈ names, name.isString = true) (hd : done.Nodup) :
    (names.foldl (fun done x => if done.any (sameInDocument · x) then done else x :: done)
        done).Nodup ∧
      ∀ name, name ∈ names.foldl
        (fun done x => if done.any (sameInDocument · x) then done else x :: done) done ↔
          name ∈ done ∨ name ∈ names := by
  induction names generalizing done with
  | nil => exact ⟨hd, by simp⟩
  | cons name names ih =>
    have hrest : ∀ other ∈ names, other.isString = true := fun other ho =>
      ht other (List.mem_cons_of_mem _ ho)
    have hany : done.any (sameInDocument · name) = true ↔ name ∈ done := by
      simp [sameInDocument_of_isString (ht name (List.mem_cons_self ..))]
    rw [List.foldl_cons]
    by_cases h : name ∈ done
    · rw [if_pos (hany.mpr h)]
      obtain ⟨hn, hm⟩ := ih done hrest hd
      refine ⟨hn, fun other => ?_⟩
      rw [hm, List.mem_cons]
      constructor
      · rintro (ho | ho)
        · exact .inl ho
        · exact .inr (.inr ho)
      · rintro (ho | rfl | ho)
        · exact .inl ho
        · exact .inl h
        · exact .inr ho
    · rw [if_neg (mt hany.mp h)]
      obtain ⟨hn, hm⟩ := ih (name :: done) hrest (List.nodup_cons.mpr ⟨h, hd⟩)
      refine ⟨hn, fun other => ?_⟩
      rw [hm, List.mem_cons, List.mem_cons, or_assoc, or_left_comm]

private theorem foldl_distinct_ne_nil (same : Value → Value → Bool) (done items : List Value)
    (hd : done ≠ []) :
    items.foldl (fun done x => if done.any (same · x) then done else x :: done) done ≠ [] := by
  induction items generalizing done with
  | nil => exact hd
  | cons item items ih =>
    rw [List.foldl_cons]
    apply ih
    split
    · exact hd
    · exact List.cons_ne_nil _ _

theorem distinctBy_eq_nil_iff {same : Value → Value → Bool} {items : List Value} :
    distinctBy same items = [] ↔ items = [] := by
  cases items with
  | nil => simp [distinctBy]
  | cons item items =>
    have h := foldl_distinct_ne_nil same [item] items (List.cons_ne_nil _ _)
    simpa [distinctBy] using h

/-- Of texts each is kept once. -/
theorem distinctBy_of_isString {names : List Value} (ht : ∀ name ∈ names, name.isString = true) :
    (distinctBy sameInDocument names).Nodup ∧
      ∀ name, name ∈ distinctBy sameInDocument names ↔ name ∈ names := by
  obtain ⟨hn, hm⟩ := foldl_distinct_of_isString [] names ht List.nodup_nil
  rw [distinctBy]
  exact ⟨(List.reverse_perm _).nodup_iff.mpr hn, by simpa using hm⟩

end Value

namespace Introspection
open Success

theorem nameLess_of_codes {v w : Value} {s t : List Nat} (hv : v.codes? = some s)
    (hw : w.codes? = some t) : nameLess v w = decide (s < t) := by
  rw [nameLess, hv, hw]

/-- Texts are put in their order, each of them once. -/
theorem sortNames_of_isString {names : List Value} (ht : ∀ name ∈ names, name.isString = true)
    (hn : names.Nodup) :
    ∃ sorted, sortNames names = .ok sorted ∧
      sorted.Pairwise (fun v w => nameLess v w = true) ∧ ∀ name, name ∈ sorted ↔ name ∈ names := by
  -- On texts the order is the one of their codes, which is total on all values.
  let codes (v : Value) : List Nat := v.codes?.getD []
  let le (v w : Value) : Bool := !decide (codes w < codes v)
  have hcodes : ∀ name ∈ names, name.codes? = some (codes name) := by
    intro name hname
    obtain ⟨found, hfound⟩ := Value.isString_iff_codes.mp (ht name hname)
    simp [codes, hfound]
  have hsort : names.mergeSort (fun v w => !nameLess w v) = names.mergeSort le := by
    have hmap := List.map_mergeSort (r := fun v w => !nameLess w v) (s := le) (f := id) (l := names)
      fun v hv w hw => by simp [le, nameLess_of_codes (hcodes w hw) (hcodes v hv)]
    simpa using hmap
  have hall : names.all (·.isString) = true := List.all_eq_true.mpr ht
  refine ⟨names.mergeSort le, ?_, ?_, fun name => List.mem_mergeSort⟩
  · rw [sortNames, hall, Bool.true_or, Bool.true_or, if_pos rfl, hsort]
  · have hle : (names.mergeSort le).Pairwise fun v w => le v w = true :=
      List.pairwise_mergeSort
        (fun s t u hst htu => by
          simp only [le, Bool.not_eq_true', decide_eq_false_iff_not, List.not_lt] at *
          exact List.le_trans hst htu)
        (fun s t => by
          simp only [le, Bool.or_eq_true, Bool.not_eq_true', decide_eq_false_iff_not, List.not_lt]
          exact List.le_total (codes s) (codes t)) names
    have hne : (names.mergeSort le).Pairwise (· ≠ ·) :=
      (List.mergeSort_perm names le).nodup_iff.mpr hn
    refine (hle.and hne).imp_of_mem fun {v w} hv hw h => ?_
    have hcv := hcodes v (List.mem_mergeSort.mp hv)
    have hcw := hcodes w (List.mem_mergeSort.mp hw)
    have hvw : ¬ codes w < codes v := by
      simpa only [le, Bool.not_eq_true', decide_eq_false_iff_not] using h.1
    rw [nameLess_of_codes hcv hcw, decide_eq_true_iff]
    by_contra hwv
    refine h.2 (Value.codes_inj hcv ?_)
    rw [List.le_antisymm (List.not_lt.mp hvw) (List.not_lt.mp hwv)]
    exact hcw

section Known
variable {known : List Value} (hk : ∀ name ∈ known, name.isString = true)
include hk

theorem any_same_iff {name : Value} : known.any (·.same name) = true ↔ name ∈ known := by
  rw [List.any_eq_true]
  constructor
  · rintro ⟨found, hf, h⟩
    exact (Value.isString_same_iff (hk found hf)).mp h ▸ hf
  · intro h
    exact ⟨_, h, (Value.isString_same_iff (hk name h)).mpr rfl⟩

theorem mem_filter_unknown {type : TypeDef} {name : Value} :
    name ∈ (type.body.references.filter fun name => !known.any (·.same name)) ↔
      type.body.Mentions name ∧ name ∉ known := by
  rw [List.mem_filter, TypeBody.mem_references_iff, Bool.not_eq_true', ← Bool.not_eq_true,
    any_same_iff hk]

theorem checkReferences_eq_ok {type : TypeDef} :
    checkReferences known type = .ok () ↔ ∀ name, type.body.Mentions name → name ∈ known := by
  constructor
  · intro h name hm
    unfold checkReferences at h
    split at h
    · simp at h
    split at h
    · rename_i hd
      rw [danglingNames, Value.distinctBy_eq_nil_iff] at hd
      by_contra hn
      exact List.not_mem_nil (hd ▸ (mem_filter_unknown hk).mpr ⟨hm, hn⟩)
    · obtain ⟨names, -, h⟩ := bind_eq_ok.mp h
      simp [refuse] at h
  · intro h
    have hfind : type.body.references.find? (!·.hashable) = none := by
      rw [List.find?_eq_none]
      intro name hn
      simp [Value.hashable_of_isString (hk name (h name (TypeBody.mem_references_iff.mp hn)))]
    have hnone : danglingNames known type = [] := by
      rw [danglingNames, Value.distinctBy_eq_nil_iff, List.eq_nil_iff_forall_not_mem]
      intro name hn
      obtain ⟨hm, hnot⟩ := (mem_filter_unknown hk).mp hn
      exact hnot (h name hm)
    simp only [checkReferences, hfind, hnone]

/-- A type with names that are not known, all of them texts, is told with exactly these names. -/
theorem checkReferences_eq_error {type : TypeDef}
    (ht : ∀ name, type.body.Mentions name → name.isString = true)
    (hd : ∃ name, type.body.Mentions name ∧ name ∉ known) :
    ∃ names : List Value,
      checkReferences known type = .error (.malformed (.dangling type.name names)) ∧
      names.Pairwise (fun v w => nameLess v w = true) ∧
      ∀ name, name ∈ names ↔ type.body.Mentions name ∧ name ∉ known := by
  have hfind : type.body.references.find? (!·.hashable) = none := by
    rw [List.find?_eq_none]
    intro name hn
    simp [Value.hashable_of_isString (ht name (TypeBody.mem_references_iff.mp hn))]
  let unknown := type.body.references.filter fun name => !known.any (·.same name)
  have hunknown : ∀ name ∈ unknown, name.isString = true := fun name hn =>
    ht name ((mem_filter_unknown hk).mp hn).1
  obtain ⟨hnodup, hmem⟩ := Value.distinctBy_of_isString hunknown
  have hall : ∀ name, name ∈ danglingNames known type ↔
      type.body.Mentions name ∧ name ∉ known := fun name =>
    (hmem name).trans (mem_filter_unknown hk)
  obtain ⟨names, hsort, hpair, hsorted⟩ := sortNames_of_isString
    (fun name hn => ht name ((hall name).mp hn).1) hnodup
  have hne : danglingNames known type ≠ [] := by
    obtain ⟨name, hname⟩ := hd
    exact List.ne_nil_of_mem ((hall name).mpr hname)
  refine ⟨names, ?_, hpair, fun name => (hsorted name).trans (hall name)⟩
  simp only [checkReferences, hfind]
  rw [hsort]
  rfl

theorem checkRoot_eq_ok {root : Value} :
    checkRoot known root = .ok () ↔ (root ≠ .null → root ∈ known) := by
  unfold checkRoot
  constructor
  · intro h hr
    split at h
    · rename_i hn
      cases root <;> simp [Value.isNull] at hn hr
    split at h
    · simp at h
    split at h
    · rename_i ha
      exact (any_same_iff hk).mp ha
    · simp [refuse] at h
  · intro h
    split
    · rfl
    rename_i hn
    have hr : root ∈ known := h fun hr => hn (by rw [hr]; rfl)
    rw [if_neg (by simp [Value.hashable_of_isString (hk root hr)]),
      if_pos ((any_same_iff hk).mpr hr)]

theorem checkRoot_eq_error {root : Value} (ht : root.isString = true) (hn : root ∉ known) :
    checkRoot known root = .error (.malformed (.unknownRoot root)) := by
  have hnull : root.isNull = false := by
    cases root with
    | null => cases ht
    | _ => rfl
  rw [checkRoot, hnull, if_neg Bool.false_ne_true,
    if_neg (by simp [Value.hashable_of_isString ht]), if_neg (mt (any_same_iff hk).mp hn)]
  rfl

end Known

theorem Outline.isString_names {result : Value} {items : List Value} {schema : Schema}
    (h : Outline result items schema) :
    ∀ name ∈ items.map entryName, name.isString = true := by
  intro name hn
  obtain ⟨data, hd, rfl⟩ := List.mem_map.mp hn
  exact (h.isEntry data hd).isString

/-- A schema is built exactly when the result has an outline of it and every name that stands in it
is the name of an entry. -/
theorem build_eq_ok {result : Value} {schema : Schema} :
    build result = .ok schema ↔ ∃ items, Outline result items schema ∧
      ∀ name, schema.Mentions name → name ∈ items.map entryName := by
  have hiff : ∀ items, Outline result items schema →
      (build result = .ok schema ↔ ∀ name, schema.Mentions name → name ∈ items.map entryName) := by
    intro items ho
    have hk := ho.isString_names
    rw [ho.build_eq]
    simp only [bind_eq_ok, pure_eq_ok, and_true]
    constructor
    · rintro ⟨⟨⟩, ht, ⟨⟩, hr⟩ name hm
      cases hm with
      | inType hin hb => exact (checkReferences_eq_ok hk).mp (forM_eq_ok.mp ht _ hin) name hb
      | asRoot hin hne => exact (checkRoot_eq_ok hk).mp (forM_eq_ok.mp hr _ hin) hne
    · intro h
      refine ⟨(), forM_eq_ok.mpr fun type hin => ?_, (), forM_eq_ok.mpr fun root hin => ?_⟩
      · exact (checkReferences_eq_ok hk).mpr fun name hb => h name (.inType hin hb)
      · exact (checkRoot_eq_ok hk).mpr fun hne => h root (.asRoot hin hne)
  constructor
  · intro h
    obtain ⟨items, ho⟩ := exists_outline_of_build h
    exact ⟨items, ho, (hiff items ho).mp h⟩
  · rintro ⟨items, ho, h⟩
    exact (hiff items ho).mpr h

/-- What is told of a schema some of whose names are not known. A root is told only where all the
types are in order, and nothing is told of what comes after. -/
inductive Told (known : List Value) (schema : Schema) : Malformed → Prop
  | inType {before after : List TypeDef} {type : TypeDef} {names : List Value} :
      schema.types = before ++ type :: after →
      (∀ earlier ∈ before, ∀ name, earlier.body.Mentions name → name ∈ known) →
      names ≠ [] → names.Pairwise (fun first second => nameLess first second = true) →
      (∀ name, name ∈ names ↔ type.body.Mentions name ∧ name ∉ known) →
      Told known schema (.dangling type.name names)
  | asRoot {before after : List Value} {root : Value} :
      (∀ type ∈ schema.types, ∀ name, type.body.Mentions name → name ∈ known) →
      [schema.query, schema.mutation, schema.subscription] = before ++ root :: after →
      (∀ earlier ∈ before, earlier ≠ .null → earlier ∈ known) →
      root ≠ .null → root ∉ known → Told known schema (.unknownRoot root)

private theorem exists_first {α : Type} {p : α → Prop} {xs : List α} (h : ∃ x ∈ xs, p x) :
    ∃ before x after, xs = before ++ x :: after ∧ (∀ y ∈ before, ¬ p y) ∧ p x := by
  induction xs with
  | nil => simp at h
  | cons x xs ih =>
    by_cases hx : p x
    · exact ⟨[], x, xs, rfl, by simp, hx⟩
    · have hxs : ∃ y ∈ xs, p y := by simpa [hx] using h
      obtain ⟨before, y, after, rfl, hb, hy⟩ := ih hxs
      exact ⟨x :: before, y, after, rfl, by simpa [hx] using hb, hy⟩

/-- A result with an outline some of whose names are not known is refused, and the reason is told
of the first place where such a name stands. -/
theorem Outline.build_eq_error {result : Value} {items : List Value} {schema : Schema}
    (h : Outline result items schema)
    (ht : ∀ name, schema.Mentions name → name.isString = true)
    (hd : ∃ name, schema.Mentions name ∧ name ∉ items.map entryName) :
    ∃ reason, build result = .error (.malformed reason) ∧
      Told (items.map entryName) schema reason := by
  have hk := h.isString_names
  rw [h.build_eq]
  -- The roots are only looked up when nothing is missing in the types.
  by_cases htypes : ∃ type ∈ schema.types, ∃ name, type.body.Mentions name ∧
      name ∉ items.map entryName
  · obtain ⟨before, type, after, hsplit, hbefore, hdang⟩ := exists_first htypes
    have hin : type ∈ schema.types := hsplit ▸ List.mem_append_right _ (List.mem_cons_self ..)
    have hclean : ∀ earlier ∈ before, ∀ name, earlier.body.Mentions name →
        name ∈ items.map entryName := by
      intro earlier he name hm
      by_contra hn
      exact hbefore earlier he ⟨name, hm, hn⟩
    obtain ⟨names, hcheck, hpair, hall⟩ := checkReferences_eq_error hk
      (fun name hm => ht name (.inType hin hm)) hdang
    refine ⟨.dangling type.name names, ?_, .inType hsplit hclean ?_ hpair hall⟩
    · rw [hsplit, forM_eq_error
        (fun earlier he => (checkReferences_eq_ok hk).mpr (hclean earlier he)) hcheck]
      rfl
    · obtain ⟨name, hm, hn⟩ := hdang
      exact List.ne_nil_of_mem ((hall name).mpr ⟨hm, hn⟩)
  · have hclean : ∀ type ∈ schema.types, ∀ name, type.body.Mentions name →
        name ∈ items.map entryName := by
      intro type hin name hm
      by_contra hn
      exact htypes ⟨type, hin, name, hm, hn⟩
    obtain ⟨name, hm, hn⟩ := hd
    cases hm with
    | inType hin hb => exact absurd (hclean _ hin name hb) hn
    | asRoot hin hne =>
      obtain ⟨before, root, after, hsplit, hbefore, hroot, hunknown⟩ :=
        exists_first (p := fun root => root ≠ Value.null ∧ root ∉ items.map entryName)
          ⟨name, hin, hne, hn⟩
      have hroots : ∀ earlier ∈ before, earlier ≠ .null → earlier ∈ items.map entryName := by
        intro earlier he hnull
        by_contra hnot
        exact hbefore earlier he ⟨hnull, hnot⟩
      have hmem : root ∈ [schema.query, schema.mutation, schema.subscription] :=
        hsplit ▸ List.mem_append_right _ (List.mem_cons_self ..)
      refine ⟨.unknownRoot root, ?_, .asRoot hclean hsplit hroots hroot hunknown⟩
      rw [forM_eq_ok.mpr fun type hin => (checkReferences_eq_ok hk).mpr (hclean type hin), ok_bind,
        hsplit, forM_eq_error (fun earlier he => (checkRoot_eq_ok hk).mpr (hroots earlier he))
          (checkRoot_eq_error hk (ht root (.asRoot hmem hroot)) hunknown)]
      rfl

/-- The name of an entry that does not belong to the introspection system is declared. -/
theorem Outline.exists_find? {result : Value} {items : List Value} {schema : Schema}
    (h : Outline result items schema) {name : Value} {front : String}
    (hfront : name.front? = some front) (hn : name ∈ items.map entryName)
    (hm : isMetaName front = false) :
    ∃ type, schema.find? name = some type ∧ type.name = name := by
  have ht : name.isString = true := Value.isString_iff_front.mpr ⟨front, hfront⟩
  obtain ⟨data, hd, hname⟩ := List.mem_map.mp hn
  have hdecl : data ∈ items.filter isDeclared :=
    List.mem_filter.mpr ⟨hd, by simp [isDeclared, hname, hfront, hm]⟩
  obtain ⟨type, htype, hdesc⟩ := exists_mem_of_forall₂ h.described hdecl
  have htext : type.name = name := hdesc.name.found.symm.trans hname
  obtain ⟨found, hfound⟩ : ∃ found, schema.find? name = some found := by
    rw [← Option.isSome_iff_exists, Schema.find?, List.find?_isSome]
    exact ⟨type, htype, (Value.same_iff_of_isString ht).mpr htext⟩
  have hsame : found.name.same name = true :=
    List.find?_some (p := fun type : TypeDef => type.name.same name) hfound
  exact ⟨found, hfound, (Value.same_iff_of_isString ht).mp hsame⟩

/-- No name is left open in a schema that is built, and none is told to be that is not. In a schema
that is built every name is a text and the name of an entry, and is declared unless it belongs to
the introspection system. A result that is well formed but for its names, all of them texts, is
refused when one of them is no name of an entry. -/
theorem build_resolves_names (result : Value) :
    (∀ schema, build result = .ok schema →
      ∃ data items, Envelope result data ∧ data.Has "types" (.list items) ∧
        ∀ name, schema.Mentions name → ∃ front, name.front? = some front ∧
          (∃ entry ∈ items, entry.Has "name" name) ∧
          (isMetaName front = false →
            ∃ type, schema.find? name = some type ∧ type.name = name)) ∧
    (∀ items schema, Outline result items schema →
      (∀ name, schema.Mentions name → name.isString = true) →
      (∃ name, schema.Mentions name ∧ name ∉ items.map entryName) →
      ∃ reason, build result = .error (.malformed reason) ∧
        Told (items.map entryName) schema reason) := by
  constructor
  · intro schema hb
    obtain ⟨items, ho, hk⟩ := build_eq_ok.mp hb
    obtain ⟨data, henv, hlist, -⟩ := ho.exists_data
    refine ⟨data, items, henv, hlist, fun name hm => ?_⟩
    have hn := hk name hm
    obtain ⟨front, hfront⟩ := Value.isString_iff_front.mp (ho.isString_names name hn)
    refine ⟨front, hfront, ?_, ho.exists_find? hfront hn⟩
    obtain ⟨entry, he, rfl⟩ := List.mem_map.mp hn
    exact ⟨entry, he, (ho.isEntry entry he).has_name⟩
  · intro items schema ho ht hd
    exact ho.build_eq_error ht hd

/-- A union of three members, one of them given twice, in a list of types without them. -/
def openUnion : TypeDef where
  name := .str "Found"
  body := .union [.str "User", .str "Repo", .str "User"]

def openUnionEntry : Value :=
  .object [("kind", .str "UNION"), ("name", .str "Found"),
    ("possibleTypes", .list [.object [("name", .str "User")], .object [("name", .str "Repo")],
      .object [("name", .str "User")]])]

theorem build_resolves_names_openUnion :
    ∃ reason, build (.object [("__schema", .object [("types", .list [openUnionEntry])])]) =
        .error (.malformed reason) ∧
      Told [.str "Found"] { types := [openUnion] } reason := by
  have houtline : Outline (.object [("__schema", .object [("types", .list [openUnionEntry])])])
      [openUnionEntry] { types := [openUnion] } := by
    refine ⟨⟨_, .bare rfl, ⟨rfl, rfl, by simp⟩, .missing rfl, .missing rfl, .missing rfl⟩, ?_,
      by simp, .cons ⟨⟨rfl, rfl, by simp⟩, ⟨rfl, rfl, by simp [openUnion]⟩, rfl, ?_⟩ .nil⟩
    · intro data hd
      rw [List.mem_singleton.mp hd]
      exact ⟨⟨.str "UNION", rfl, rfl, by simp⟩, .str "Found", rfl, rfl, rfl, by simp⟩
    · exact ⟨_, ⟨rfl, .inl rfl⟩, .cons ⟨rfl, rfl, by simp⟩ (.cons ⟨rfl, rfl, by simp⟩
        (.cons ⟨rfl, rfl, by simp⟩ .nil))⟩
  refine (build_resolves_names _).2 _ _ houtline ?_ ⟨.str "User", ?_, ?_⟩
  · intro name hm
    cases hm with
    | inType ht hb =>
      rw [List.mem_singleton.mp ht] at hb
      have href := TypeBody.mem_references_iff.mpr hb
      simp only [openUnion, TypeBody.references, List.mem_cons, List.not_mem_nil, or_false] at href
      rcases href with rfl | rfl | rfl <;> rfl
    | asRoot hr hn => simp_all
  · exact .inType (List.mem_singleton_self _) (.member (List.mem_cons_self ..))
  · simp [openUnionEntry, entryName, List.lookup_cons]

end Introspection
end SchemaScribe
