import SchemaScribe.Proofs.Introspection.Refusal
import SchemaScribe.Sdl.Encoding

/-! # Texts that are whole

The text of a schema is whole as long as no torn text stands in the schema, and none stands in a
schema that is built from data without one. A text that is torn is not empty.
-/
namespace SchemaScribe
open Introspection Success

/-! ## Data without torn texts -/

/-- No text in the value, at any depth, is torn. -/
def Value.Untorn (doc : Value) : Prop := ∀ text, ¬ (Value.torn text).Inside doc

namespace Value.Untorn
variable {doc : Value}

theorem null : Untorn .null := by
  intro text h
  cases h

theorem inside {part : Value} (h : doc.Untorn) (hp : part.Inside doc) : part.Untorn :=
  fun text hin => h text (hin.trans hp)

theorem member (h : doc.Untorn) (key : String) : (doc.member key).Untorn := by
  rcases Inside.of_member doc key with hm | hm
  · exact hm ▸ null
  · exact h.inside hm

end Value.Untorn

/-! ## Filling in -/

section Filled
variable {standIn : Text.Half → Char}

theorem map_eq_self {α : Type} {f : α → α} {xs : List α} (h : ∀ x ∈ xs, f x = x) :
    xs.map f = xs := by
  rw [List.map_congr_left h, List.map_id']

theorem Value.Untorn.filled_eq {v : Value} (h : v.Untorn) : v.filled standIn = v := by
  cases v with
  | torn text => exact absurd .whole (h text)
  | _ => rfl

theorem Value.Untorn.filled_name {data name : Value} (h : data.Untorn) {key : String}
    (hn : data.Has key name) : name.filled standIn = name :=
  (hn.found ▸ h.member key : name.Untorn).filled_eq

theorem TypeRef.SpelledBy.filled_eq {type : TypeRef} {data : Value} (h : type.SpelledBy data)
    (hd : data.Untorn) : type.filled standIn = type := by
  induction type generalizing data with
  | named name => rw [TypeRef.filled, hd.filled_name h.2]
  | list item ih => rw [TypeRef.filled, ih h.2 (hd.member "ofType")]
  | nonNull item ih => rw [TypeRef.filled, ih h.2 (hd.member "ofType")]

theorem InputValue.DescribedBy.filled_eq {value : InputValue} {data : Value}
    (h : value.DescribedBy data) (hd : data.Untorn) : value.filled standIn = value := by
  have hdescription := (h.description ▸ hd.member _ : value.description.Untorn)
  have hdefault := (h.defaultValue ▸ hd.member _ : value.defaultValue.Untorn)
  rw [InputValue.filled, hd.filled_name h.name, h.type.spelled.filled_eq (hd.member "type"),
    hdescription.filled_eq, hdefault.filled_eq]

theorem Field.DescribedBy.filled_eq {field : Field} {data : Value} (h : field.DescribedBy data)
    (hd : data.Untorn) : field.filled standIn = field := by
  have hdescription := (h.description ▸ hd.member _ : field.description.Untorn)
  have hreason := (h.reason ▸ hd.member _ : field.reason.Untorn)
  obtain ⟨items, hlist, hargs⟩ := h.arguments
  have harguments : field.arguments.map (·.filled standIn) = field.arguments := by
    refine map_eq_self fun argument ha => ?_
    obtain ⟨item, hi, hdesc⟩ := exists_item_of_forall₂ hargs ha
    exact hdesc.filled_eq (hd.inside (.of_lists hlist hi))
  rw [Field.filled, hd.filled_name h.name, h.type.spelled.filled_eq (hd.member "type"),
    hdescription.filled_eq, harguments, hreason.filled_eq]

theorem EnumValue.DescribedBy.filled_eq {value : EnumValue} {data : Value}
    (h : value.DescribedBy data) (hd : data.Untorn) : value.filled standIn = value := by
  have hdescription := (h.description ▸ hd.member _ : value.description.Untorn)
  have hreason := (h.reason ▸ hd.member _ : value.reason.Untorn)
  rw [EnumValue.filled, hd.filled_name h.name, hdescription.filled_eq, hreason.filled_eq]

theorem NamesListed.filled_eq {names : List Value} {key : String} {data : Value}
    (h : NamesListed names key data) (hd : data.Untorn) :
    names.map (·.filled standIn) = names := by
  obtain ⟨items, hlist, hnames⟩ := h
  refine map_eq_self fun name hn => ?_
  obtain ⟨item, hi, hhas⟩ := exists_item_of_forall₂ hnames hn
  exact (hd.inside (.of_lists hlist hi)).filled_name hhas

theorem FieldsListed.filled_eq {fields : List Field} {data : Value} (h : FieldsListed fields data)
    (hd : data.Untorn) : fields.map (·.filled standIn) = fields := by
  obtain ⟨items, hlist, hfields⟩ := h
  refine map_eq_self fun field hf => ?_
  obtain ⟨item, hi, hdesc⟩ := exists_item_of_forall₂ hfields hf
  exact hdesc.filled_eq (hd.inside (.of_lists hlist hi))

theorem TypeBody.DescribedBy.filled_eq {body : TypeBody} {data : Value} (h : body.DescribedBy data)
    (hd : data.Untorn) : body.filled standIn = body := by
  cases body with
  | scalar => rfl
  | object interfaces fields | interface interfaces fields =>
    rw [TypeBody.filled, h.1.filled_eq hd, h.2.filled_eq hd]
  | union members => rw [TypeBody.filled, NamesListed.filled_eq h hd]
  | enum values =>
    obtain ⟨items, hlist, hvalues⟩ := h
    rw [TypeBody.filled, map_eq_self fun value hv => ?_]
    obtain ⟨item, hi, hdesc⟩ := exists_item_of_forall₂ hvalues hv
    exact hdesc.filled_eq (hd.inside (.of_lists hlist hi))
  | inputObject fields =>
    obtain ⟨items, hlist, hfields⟩ := h
    rw [TypeBody.filled, map_eq_self fun field hf => ?_]
    obtain ⟨item, hi, hdesc⟩ := exists_item_of_forall₂ hfields hf
    exact hdesc.filled_eq (hd.inside (.of_lists hlist hi))

theorem TypeDef.DescribedBy.filled_eq {type : TypeDef} {data : Value} (h : type.DescribedBy data)
    (hd : data.Untorn) : type.filled standIn = type := by
  have hdescription := (h.description ▸ hd.member _ : type.description.Untorn)
  rw [TypeDef.filled, hd.filled_name h.name, hdescription.filled_eq, h.members.filled_eq hd]

theorem Introspection.RootNamed.filled_eq {data root : Value} {key : String}
    (h : RootNamed data key root) (hd : data.Untorn) : root.filled standIn = root := by
  cases h with
  | missing _ => rfl
  | named hn => exact (hd.member key).filled_name hn

/-- In a schema that is built from data without torn texts there is nothing to fill in. -/
theorem Introspection.Outline.filled_eq {result : Value} {items : List Value} {schema : Schema}
    (h : Outline result items schema) (hr : result.Untorn) : schema.filled standIn = schema := by
  obtain ⟨data, henv, hlist, hq, hm, hs⟩ := h.exists_data
  have hd : data.Untorn := hr.inside henv.inside
  have htypes : schema.types.map (·.filled standIn) = schema.types := by
    refine map_eq_self fun type ht => ?_
    obtain ⟨entry, he, hdesc⟩ := exists_item_of_forall₂ h.described ht
    have hitem : entry ∈ items := (List.mem_filter.mp he).1
    exact hdesc.filled_eq (hd.inside ((Value.Inside.item hitem .whole).trans (.of_has hlist)))
  rw [Schema.filled, htypes, hq.filled_eq hd, hm.filled_eq hd, hs.filled_eq hd]

end Filled

/-! ## Tears -/

namespace Sdl

theorem firstTear_self (place : Nat) (text : List Char) : firstTear place text text = none := by
  induction text generalizing place with
  | nil => rfl
  | cons c text ih => rw [firstTear, if_pos rfl, ih]

/-- A schema has a whole text if there is nothing in it to fill in. -/
theorem tear?_of_filled_eq {schema : Schema} (h : ∀ standIn, schema.filled standIn = schema) :
    tear? schema = none := by
  rw [tear?, h, h, firstTear_self]

/-- Data without torn texts has a schema with a whole text. -/
theorem tear?_of_untorn {result : Value} {schema : Schema} (hr : result.Untorn)
    (hb : build result = .ok schema) : tear? schema = none := by
  obtain ⟨items, ho⟩ := exists_outline_of_build hb
  exact tear?_of_filled_eq fun standIn => ho.filled_eq hr

theorem print_eq_schemaText {schema : Schema} {text : String} (h : print schema = .ok text) :
    text = schemaText schema := by
  unfold print at h
  split at h
  · cases h
  · exact (Except.ok.inj h).symm

theorem blocks_eq_nil_iff {schema : Schema} :
    blocks schema = [] ↔ hasConventionalRoots schema = true ∧ schema.types = [] := by
  unfold blocks
  split
  next h => simp [h]
  next h => simp [h]

theorem schemaText_eq_empty_iff {schema : Schema} : schemaText schema = "" ↔ blocks schema = [] := by
  unfold schemaText
  split
  next h => simpa using h
  next h =>
    refine iff_of_false (fun htext => ?_) (by simpa using h)
    have hlength := congrArg String.length htext
    simp at hlength

theorem filled_of_isConventional {root : Value} {name : String} (h : isConventional root name = true)
    (standIn : Text.Half → Char) : root.filled standIn = root := by
  cases root with
  | torn text => simp [isConventional, Value.isNull, Value.same] at h
  | _ => rfl

/-- Where nothing is printed there is nothing to fill in. -/
theorem filled_of_schemaText_empty {schema : Schema} (h : schemaText schema = "")
    (standIn : Text.Half → Char) : schema.filled standIn = schema := by
  obtain ⟨hroots, htypes⟩ := blocks_eq_nil_iff.mp (schemaText_eq_empty_iff.mp h)
  simp only [hasConventionalRoots, Bool.and_eq_true] at hroots
  obtain ⟨⟨hquery, hmutation⟩, hsubscription⟩ := hroots
  rw [Schema.filled, filled_of_isConventional hquery, filled_of_isConventional hmutation,
    filled_of_isConventional hsubscription, htypes, List.map_nil, ← htypes]

/-- A text that is torn is not empty. -/
theorem schemaText_ne_empty {schema : Schema} {tear : Tear} (h : tear? schema = some tear) :
    schemaText schema ≠ "" := by
  intro htext
  rw [tear?_of_filled_eq (filled_of_schemaText_empty htext)] at h
  cases h

end Sdl
end SchemaScribe
