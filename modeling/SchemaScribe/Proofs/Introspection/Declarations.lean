import SchemaScribe.Notice
import SchemaScribe.Proofs.Introspection.Outline
import Mathlib.Data.List.Nodup

/-! # Declarations of a schema

A schema that is built has one declaration for each entry outside the introspection system, in the
order of the entries. No two entries share a name, so a name that is asked for leads to the one
declaration that has it.
-/
namespace SchemaScribe
open Introspection Success

theorem TypeDef.DescribedBy.name_eq {type : TypeDef} {data : Value} (h : type.DescribedBy data) :
    type.name = entryName data :=
  h.name.found.symm

theorem map_name_of_described {types : List TypeDef} {items : List Value}
    (h : List.Forall₂ TypeDef.DescribedBy types items) :
    types.map (·.name) = items.map entryName := by
  induction h with
  | nil => rfl
  | cons hd _ ih => rw [List.map_cons, List.map_cons, hd.name_eq, ih]

namespace Schema
variable {schema : Schema} {name : Value} (ht : name.isString = true)
include ht

/-- Where no two declarations share a name, a text leads to the declaration with that name. -/
theorem declaration_eq_ok_iff (hn : (schema.types.map (·.name)).Nodup) {type : TypeDef} :
    schema.declaration name = .ok type ↔ type ∈ schema.types ∧ type.name = name := by
  have hfind : schema.declaration name = .ok type ↔ schema.find? name = some type := by
    unfold declaration
    cases schema.find? name <;> simp
  rw [hfind, Schema.find?]
  constructor
  · intro h
    have hsame : type.name.same name = true :=
      List.find?_some (p := fun type : TypeDef => type.name.same name) h
    exact ⟨List.mem_of_find?_eq_some h, (Value.same_iff_of_isString ht).mp hsame⟩
  · rintro ⟨htype, hname⟩
    obtain ⟨before, after, hsplit⟩ := List.append_of_mem htype
    rw [List.find?_eq_some_iff_append]
    refine ⟨(Value.same_iff_of_isString ht).mpr hname, before, after, hsplit, fun earlier he => ?_⟩
    -- An earlier declaration of that name would be a second one.
    have hne : earlier.name ≠ type.name := by
      rw [hsplit, List.map_append, List.map_cons, List.nodup_append] at hn
      exact hn.2.2 _ (List.mem_map.mpr ⟨earlier, he, rfl⟩) _ (List.mem_cons_self ..)
    rw [hname] at hne
    simpa [Value.same_iff_of_isString ht, ← Bool.not_eq_true] using hne

theorem declaration_eq_error_iff :
    schema.declaration name = .error (.missingKey name) ↔
      ∀ type ∈ schema.types, type.name ≠ name := by
  have hfind : schema.declaration name = .error (.missingKey name) ↔
      schema.find? name = none := by
    unfold declaration
    cases schema.find? name <;> simp
  rw [hfind, Schema.find?, List.find?_eq_none]
  simp only [Value.same_iff_of_isString ht, ne_eq]

end Schema

namespace Introspection

theorem Outline.nodup_declared {result : Value} {items : List Value} {schema : Schema}
    (h : Outline result items schema) : (schema.types.map (·.name)).Nodup := by
  rw [map_name_of_described h.described]
  exact h.nodup.sublist (List.filter_sublist.map entryName)

/-- Entries have the names under which they are known. -/
theorem forall₂_entryName {items : List Value} (h : ∀ data ∈ items, IsEntry data) :
    List.Forall₂ (fun name item => Value.Has item "name" name) (items.map entryName) items := by
  rw [List.forall₂_map_left_iff, List.forall₂_same]
  exact fun data hd => (h data hd).has_name

/-- A declaration and the entry at its place, told by the name of either. -/
theorem mem_declared_iff {types : List TypeDef} {items : List Value} {name : Value}
    (h : List.Forall₂ TypeDef.DescribedBy types items) {type : TypeDef} :
    type ∈ types ∧ type.name = name ↔
      ∃ entry, (type, entry) ∈ types.zip items ∧ entry.Has "name" name := by
  induction h with
  | nil => simp
  | @cons first data types items hd _ ih =>
    simp only [List.mem_cons, List.zip_cons_cons, Prod.mk.injEq]
    constructor
    · rintro ⟨rfl | ht, hname⟩
      · exact ⟨data, .inl ⟨rfl, rfl⟩, hname ▸ hd.name⟩
      · obtain ⟨entry, he, hhas⟩ := ih.mp ⟨ht, hname⟩
        exact ⟨entry, .inr he, hhas⟩
    · rintro ⟨entry, ⟨rfl, rfl⟩ | he, hhas⟩
      · exact ⟨.inl rfl, hd.name_eq.trans hhas.found⟩
      · obtain ⟨ht, hname⟩ := ih.mpr ⟨entry, he, hhas⟩
        exact ⟨.inr ht, hname⟩

/-- What a schema declares of a list of entries. The entries have names of their own, all of them
texts. One declaration stands for each entry outside the introspection system, in order, and a name
leads to the declaration of the entry that has it. -/
structure Declares (schema : Schema) (items : List Value) : Prop where
  named : ∃ names : List Value, (∀ name ∈ names, name.isString = true) ∧ names.Nodup ∧
    List.Forall₂ (fun name item => Value.Has item "name" name) names items
  described : List.Forall₂ TypeDef.DescribedBy schema.types (items.filter isDeclared)
  found : ∀ name type, name.isString = true → (schema.declaration name = .ok type ↔
    ∃ entry, (type, entry) ∈ schema.types.zip (items.filter isDeclared) ∧ entry.Has "name" name)
  missing : ∀ name, name.isString = true → (schema.declaration name = .error (.missingKey name) ↔
    ∀ entry ∈ items.filter isDeclared, ¬ entry.Has "name" name)

theorem Outline.declares {result : Value} {items : List Value} {schema : Schema}
    (h : Outline result items schema) : Declares schema items := by
  have hstrings : ∀ name ∈ items.map entryName, name.isString = true := by
    intro name hn
    obtain ⟨data, hd, rfl⟩ := List.mem_map.mp hn
    exact (h.isEntry data hd).isString
  refine ⟨⟨_, hstrings, h.nodup, forall₂_entryName h.isEntry⟩, h.described, fun name type ht => ?_,
    fun name ht => ?_⟩
  · rw [Schema.declaration_eq_ok_iff ht h.nodup_declared, mem_declared_iff h.described]
  rw [Schema.declaration_eq_error_iff ht]
  constructor
  · intro hnone entry he hhas
    obtain ⟨type, htype, hd⟩ := exists_mem_of_forall₂ h.described he
    exact hnone type htype (hd.name_eq.trans hhas.found)
  · intro hnone type htype hname
    obtain ⟨entry, he, hhas⟩ := (mem_declared_iff h.described).mp ⟨htype, hname⟩
    exact hnone entry (List.of_mem_zip he).2 hhas

/-- A schema that is built declares the entries that its result lists. -/
theorem build_declares {result : Value} {schema : Schema} (h : build result = .ok schema) :
    ∃ data items, Envelope result data ∧ data.Has "types" (.list items) ∧
      Declares schema items := by
  obtain ⟨items, ho⟩ := exists_outline_of_build h
  obtain ⟨data, henv, hlist, -⟩ := ho.exists_data
  exact ⟨data, items, henv, hlist, ho.declares⟩

/-- An enum and a scalar, with a type of the introspection system between them. -/
def paletteResult : Value :=
  .object [("__schema", .object [("types", .list [
    .object [("kind", .str "ENUM"), ("name", .str "Color"), ("description", .str "Of paint."),
      ("enumValues", .list [.object [("name", .str "RED")],
        .object [("name", .str "BLUE"), ("isDeprecated", .int 1)]])],
    .object [("kind", .str "OBJECT"), ("name", .str "__Type")],
    .object [("kind", .str "SCALAR"), ("name", .str "Shade")]])])]

def palette : Schema where
  types := [
    { name := .str "Color", description := .str "Of paint.",
      body := .enum [{ name := .str "RED" }, { name := .str "BLUE", deprecated := true }] },
    { name := .str "Shade", body := .scalar }]

theorem build_declares_palette : build paletteResult = .ok palette ∧
    ∃ data items, Envelope paletteResult data ∧ data.Has "types" (.list items) ∧
      Declares palette items :=
  have h : build paletteResult = .ok palette := rfl
  ⟨h, build_declares h⟩

end Introspection
end SchemaScribe
