import SchemaScribe.Proofs.Introspection.References

/-! # The order of the entries

Whether a schema is built does not depend on the order in which a result lists its entries: no two
of them share a name wherever they stand, and names are looked up when all entries are known. What
an entry declares depends on the entry alone, so that the declarations of a schema are reordered as
the entries are.
-/
namespace SchemaScribe.Introspection
open Success

/-- What an entry declares. -/
def declarationOf (data : Value) : TypeDef :=
  match typeDef (entryName data) (data.member "kind") data with
  | .ok type => type
  | .error _ => default

theorem declarationOf_eq {type : TypeDef} {data : Value} (h : type.DescribedBy data) :
    declarationOf data = type := by
  have hread : typeDef type.name (.str type.body.kindWord) data = .ok type :=
    (typeDef_eq_ok h.kind h.name).mpr h
  have hname : entryName data = type.name := h.name.found
  rw [declarationOf, hname, h.kind.found, hread]

theorem eq_map_declarationOf {types : List TypeDef} {items : List Value}
    (h : List.Forall₂ TypeDef.DescribedBy types items) : types = items.map declarationOf := by
  induction h with
  | nil => rfl
  | cons hd _ ih => rw [List.map_cons, declarationOf_eq hd, ← ih]

theorem declarationOf_describedBy {types : List TypeDef} {items : List Value}
    (h : List.Forall₂ TypeDef.DescribedBy types items) {data : Value} (hd : data ∈ items) :
    (declarationOf data).DescribedBy data := by
  obtain ⟨type, -, ht⟩ := exists_mem_of_forall₂ h hd
  rw [declarationOf_eq ht]
  exact ht

/-- Entries that are all described are described in any other order. -/
theorem described_of_perm {types : List TypeDef} {items others : List Value}
    (h : List.Forall₂ TypeDef.DescribedBy types items) (hp : items.Perm others) :
    List.Forall₂ TypeDef.DescribedBy (others.map declarationOf) others := by
  rw [List.forall₂_map_left_iff, List.forall₂_same]
  intro data hd
  exact declarationOf_describedBy h (hp.mem_iff.mpr hd)

/-- Two results that say the same but for the order of the entries in their lists of types. -/
structure Reordered (result other : Value) (items others : List Value) : Prop where
  exists_data : ∃ data otherData, Envelope result data ∧ Envelope other otherData ∧
    data.Has "types" (.list items) ∧ otherData.Has "types" (.list others) ∧
    ∀ key, key ≠ "types" → data.member key = otherData.member key
  perm : items.Perm others

theorem Reordered.symm {result other : Value} {items others : List Value}
    (h : Reordered result other items others) : Reordered other result others items := by
  obtain ⟨data, otherData, henv, hother, hlist, hlists, hrest⟩ := h.exists_data
  exact ⟨⟨otherData, data, hother, henv, hlists, hlist, fun key hk => (hrest key hk).symm⟩,
    h.perm.symm⟩

theorem RootNamed.congr {data other root : Value} {key : String}
    (hk : data.member key = other.member key) (h : RootNamed data key root) :
    RootNamed other key root := by
  cases h with
  | missing hn => exact .missing (hk ▸ hn)
  | named hn => exact .named (hk ▸ hn)

/-- The schema with the declarations of other entries. -/
def withEntries (schema : Schema) (items : List Value) : Schema :=
  { schema with types := (items.filter isDeclared).map declarationOf }

section Reordered
variable {result other : Value} {items others : List Value} {schema : Schema}

/-- The outline of a result is that of every other one with the same entries in some order. -/
theorem Outline.reordered (h : Outline result items schema)
    (hr : Reordered result other items others) : Outline other others (withEntries schema others) := by
  obtain ⟨data, otherData, henv, hother, -, hlists, hrest⟩ := hr.exists_data
  obtain ⟨found, hfound, -, hq, hm, hs⟩ := h.exists_data
  obtain rfl := hfound.unique henv
  refine ⟨⟨otherData, hother, hlists, hq.congr (hrest _ (by simp)), hm.congr (hrest _ (by simp)),
    hs.congr (hrest _ (by simp))⟩, ?_, ?_, ?_⟩
  · intro entry he
    exact h.isEntry entry (hr.perm.mem_iff.mpr he)
  · exact ((hr.perm.map entryName).nodup_iff).mp h.nodup
  · exact described_of_perm h.described (hr.perm.filter isDeclared)

/-- The entries of a result with an outline are those it lists. -/
theorem Outline.items_eq {found : List Value} (h : Outline result found schema)
    (hr : Reordered result other items others) : found = items := by
  obtain ⟨data, -, henv, -, hlist, -⟩ := hr.exists_data
  obtain ⟨data', henv', hlist', -⟩ := h.exists_data
  obtain rfl := henv'.unique henv
  exact Value.list.inj (hlist'.found.symm.trans hlist.found)

theorem mentions_withEntries (hd : List.Forall₂ TypeDef.DescribedBy schema.types
    (items.filter isDeclared)) (hp : items.Perm others) {name : Value}
    (h : (withEntries schema others).Mentions name) : schema.Mentions name := by
  cases h with
  | inType ht hm =>
    have hperm : (withEntries schema others).types.Perm schema.types := by
      rw [eq_map_declarationOf hd]
      exact (hp.symm.filter isDeclared).map declarationOf
    exact .inType (hperm.mem_iff.mp ht) hm
  | asRoot hr hn => exact .asRoot hr hn

/-- A schema that is built from a result is built from every reordering of it, with its declarations
in the new order. -/
theorem build_of_reordered (hr : Reordered result other items others)
    (h : build result = .ok schema) : build other = .ok (withEntries schema others) := by
  obtain ⟨found, ho, hknown⟩ := build_eq_ok.mp h
  obtain rfl := ho.items_eq hr
  refine build_eq_ok.mpr ⟨others, ho.reordered hr, fun name hm => ?_⟩
  have hname : name ∈ found.map entryName :=
    hknown name (mentions_withEntries ho.described hr.perm hm)
  exact (hr.perm.map entryName).mem_iff.mp hname

end Reordered

/-- Two results that list the same entries in different orders are both built or both refused. The
schemas that are built have the same roots and the same declarations: one and the same function
gives the declaration of an entry, and each schema has them in the order of its own entries. -/
theorem build_reordered {result other : Value} {items others : List Value}
    (hr : Reordered result other items others) :
    ((∃ schema, build result = .ok schema) ↔ ∃ schema, build other = .ok schema) ∧
    ∀ schema otherSchema, build result = .ok schema → build other = .ok otherSchema →
      schema.roots = otherSchema.roots ∧ schema.types.Perm otherSchema.types ∧
      ∃ declaration : Value → TypeDef,
        (∀ data ∈ items.filter isDeclared, (declaration data).DescribedBy data) ∧
        schema.types = (items.filter isDeclared).map declaration ∧
        otherSchema.types = (others.filter isDeclared).map declaration := by
  constructor
  · constructor
    · rintro ⟨schema, h⟩
      exact ⟨_, build_of_reordered hr h⟩
    · rintro ⟨schema, h⟩
      exact ⟨_, build_of_reordered hr.symm h⟩
  · intro schema otherSchema h hother
    have hsame : withEntries schema others = otherSchema :=
      Except.ok.inj ((build_of_reordered hr h).symm.trans hother)
    obtain ⟨found, ho, -⟩ := build_eq_ok.mp h
    obtain rfl := ho.items_eq hr
    have htypes : schema.types = (found.filter isDeclared).map declarationOf :=
      eq_map_declarationOf ho.described
    rw [← hsame]
    refine ⟨rfl, ?_, declarationOf, ?_, htypes, rfl⟩
    · rw [htypes]
      exact (hr.perm.filter isDeclared).map declarationOf
    · intro data hd
      exact declarationOf_describedBy ho.described hd

/-- A union whose member may come before it or after it. -/
def lampEntry : Value :=
  .object [("kind", .str "UNION"), ("name", .str "Lamp"),
    ("possibleTypes", .list [.object [("name", .str "Bulb")]])]

def bulbEntry : Value := .object [("kind", .str "OBJECT"), ("name", .str "Bulb")]

def directiveEntry : Value := .object [("kind", .str "OBJECT"), ("name", .str "__Directive")]

/-- A result with those entries and nothing else. -/
def listing (entries : List Value) : Value :=
  .object [("__schema", .object [("types", .list entries)])]

theorem build_reordered_lamp :
    Reordered (listing [lampEntry, directiveEntry, bulbEntry])
      (listing [bulbEntry, lampEntry, directiveEntry]) [lampEntry, directiveEntry, bulbEntry]
      [bulbEntry, lampEntry, directiveEntry] ∧
    ∃ schema, build (listing [bulbEntry, lampEntry, directiveEntry]) = .ok schema := by
  have hperm : ([lampEntry, directiveEntry] ++ [bulbEntry]).Perm
      ([bulbEntry] ++ [lampEntry, directiveEntry]) := List.perm_append_comm
  have hr : Reordered (listing [lampEntry, directiveEntry, bulbEntry])
      (listing [bulbEntry, lampEntry, directiveEntry]) [lampEntry, directiveEntry, bulbEntry]
      [bulbEntry, lampEntry, directiveEntry] := by
    refine ⟨⟨_, _, .bare rfl, .bare rfl, ⟨rfl, rfl, by simp⟩, ⟨rfl, rfl, by simp⟩, ?_⟩, hperm⟩
    intro key hk
    have hmissing : ∀ entries, (Value.object [("types", .list entries)]).member key = .null := by
      intro entries
      simp [List.lookup_cons, beq_eq_false_iff_ne.mpr hk]
    exact (hmissing _).trans (hmissing _).symm
  have hbuilt : ∃ schema, build (listing [lampEntry, directiveEntry, bulbEntry]) = .ok schema :=
    ⟨_, rfl⟩
  exact ⟨hr, (build_reordered hr).1.mp hbuilt⟩

end SchemaScribe.Introspection
