import SchemaScribe.Proofs.Introspection.Refusal

/-! # Modifiers of type references

A type reference is a name with modifiers around it. In the data of an introspection result each
modifier is a level of its own with the next level under `ofType`. A reference is read exactly where
such levels, not too many and no non-null directly inside another one, lead to a level with a name.
Everything else is refused, but for a kind among those levels that cannot be looked up at all.
-/
namespace SchemaScribe
open Introspection Success

/-! ## Documents of JSON -/

namespace Value

mutual

/-- Null, truth values, numbers and texts, lists of such documents, and objects of them. -/
def isJson : Value → Bool
  | .null | .bool _ | .int _ | .float _ | .str _ => true
  | .list items => itemsAreJson items
  | .dict entries => entriesAreJson entries
  | _ => false

def itemsAreJson : List Value → Bool
  | [] => true
  | item :: items => isJson item && itemsAreJson items

def entriesAreJson : List (Value × Value) → Bool
  | [] => true
  | (key, value) :: entries => key.isText && isJson value && entriesAreJson entries

end

/-- A value of JSON that is not null and holds no other values. -/
def isScalar : Value → Bool
  | .bool _ | .int _ | .float _ | .str _ => true
  | _ => false

/-- A value of JSON that holds other values. -/
def isContainer : Value → Bool
  | .list _ | .dict _ => true
  | _ => false

theorem isJson_of_lookup {key : String} {entries : Entries} {value : Value}
    (h : entriesAreJson entries = true) (hl : lookup key entries = some value) :
    value.isJson = true := by
  induction entries with
  | nil => simp [lookup] at hl
  | cons entry entries ih =>
    obtain ⟨k, v⟩ := entry
    simp only [entriesAreJson, Bool.and_eq_true] at h
    obtain ⟨⟨hk, hv⟩, hrest⟩ := h
    cases k with
    | str name =>
      rw [lookup] at hl
      split at hl
      · cases hl
        exact hv
      · exact ih hrest hl
    | _ => cases hk

theorem isJson_member {data : Value} (h : data.isJson = true) (key : String) :
    (data.member key).isJson = true := by
  cases data with
  | dict entries =>
    rw [isJson] at h
    rw [member]
    cases hl : lookup key entries with
    | none => rfl
    | some value => exact isJson_of_lookup h hl
  | _ => rfl

theorem isScalar_iff {v : Value} (h : v.isJson = true) :
    v.isScalar = true ↔ v ≠ .null ∧ v.hashable = true := by
  cases v <;> simp_all [isJson, isScalar, hashable]

theorem isContainer_iff {v : Value} (h : v.isJson = true) :
    v.isContainer = true ↔ v.hashable = false := by
  cases v <;> simp_all [isJson, isContainer, hashable]

end Value

/-! ## Modifiers -/

inductive Modifier where
  | list
  | nonNull
deriving DecidableEq, Repr

namespace Modifier

/-- The kind of the level of a modifier. -/
def word : Modifier → String
  | .list => "LIST"
  | .nonNull => "NON_NULL"

def wrap : Modifier → TypeRef → TypeRef
  | .list => .list
  | .nonNull => .nonNull

/-- No non-null modifier stands directly inside another one. -/
def Undoubled : List Modifier → Prop :=
  List.IsChain fun outer inner => ¬ (outer = .nonNull ∧ inner = .nonNull)

theorem undoubled_nil : Undoubled [] := .nil

theorem undoubled_cons {m : Modifier} {ms : List Modifier} :
    Undoubled (m :: ms) ↔ (m = .nonNull → ms.head? ≠ some .nonNull) ∧ Undoubled ms := by
  cases ms with
  | nil => simp [Undoubled]
  | cons next rest => simp [Undoubled]

theorem eq_of_word_eq {m other : Modifier} (h : m.word = other.word) : m = other := by
  cases m <;> cases other <;> simp_all [word]

end Modifier

namespace TypeRef

/-- The name with the modifiers around it, the outermost first. -/
def modified (modifiers : List Modifier) (name : Value) : TypeRef :=
  modifiers.foldr Modifier.wrap (.named name)

def modifiers : TypeRef → List Modifier
  | .named _ => []
  | .list item => .list :: item.modifiers
  | .nonNull item => .nonNull :: item.modifiers

theorem modified_modifiers (t : TypeRef) : modified t.modifiers t.innermost = t := by
  induction t with
  | named name => rfl
  | list item ih => exact congrArg TypeRef.list ih
  | nonNull item ih => exact congrArg TypeRef.nonNull ih

theorem innermost_modified (ms : List Modifier) (name : Value) :
    (modified ms name).innermost = name := by
  induction ms with
  | nil => rfl
  | cons m ms ih => cases m <;> exact ih

theorem depth_modified (ms : List Modifier) (name : Value) :
    (modified ms name).depth = ms.length := by
  induction ms with
  | nil => rfl
  | cons m ms ih => cases m <;> exact congrArg (· + 1) ih

theorem length_modifiers (t : TypeRef) : t.modifiers.length = t.depth := by
  rw [← depth_modified t.modifiers t.innermost, modified_modifiers]

theorem isNonNull_modified (ms : List Modifier) (name : Value) :
    (modified ms name).isNonNull = false ↔ ms.head? ≠ some .nonNull := by
  cases ms with
  | nil => simp [modified, isNonNull]
  | cons m ms => cases m <;> simp [modified, isNonNull, Modifier.wrap]

theorem wellNested_modified (ms : List Modifier) (name : Value) :
    (modified ms name).WellNested ↔ Modifier.Undoubled ms := by
  induction ms with
  | nil => exact iff_of_true trivial Modifier.undoubled_nil
  | cons m ms ih =>
    rw [Modifier.undoubled_cons, ← ih, ← isNonNull_modified ms name]
    cases m with
    | list => simp [modified, WellNested, Modifier.wrap]
    | nonNull => simp [modified, WellNested, Modifier.wrap]

end TypeRef

/-! ## Levels -/

/-- From the data through one level for each modifier to the level inside them. -/
inductive Value.Leads : List Modifier → Value → Value → Prop
  | here {data : Value} : Leads [] data data
  | into {m : Modifier} {ms : List Modifier} {data last : Value} :
      data.Has "kind" (.str m.word) → Leads ms (data.member "ofType") last →
      Leads (m :: ms) data last

theorem Value.leads_nil {data last : Value} : Leads [] data last ↔ data = last := by
  constructor
  · intro h
    cases h
    rfl
  · rintro rfl
    exact .here

theorem Value.leads_cons {m : Modifier} {ms : List Modifier} {data last : Value} :
    Leads (m :: ms) data last ↔
      data.Has "kind" (.str m.word) ∧ Leads ms (data.member "ofType") last := by
  constructor
  · intro h
    cases h with
    | into hk hrest => exact ⟨hk, hrest⟩
  · rintro ⟨hk, hrest⟩
    exact .into hk hrest

theorem Value.Leads.isJson {ms : List Modifier} {data last : Value} (h : Leads ms data last)
    (hdata : data.isJson = true) : last.isJson = true := by
  induction h with
  | here => exact hdata
  | into _ _ ih => exact ih (Value.isJson_member hdata "ofType")

/-- A level of any other kind than those of modifiers, with a name. -/
structure Value.Names (last name : Value) : Prop where
  kind : ∃ kind, last.Has "kind" kind ∧ kind.isScalar = true ∧ kind ≠ .str "LIST" ∧
    kind ≠ .str "NON_NULL"
  name : last.Has "name" name

theorem Value.names_iff {last name : Value} (h : last.isJson = true) :
    last.Names name ↔ (TypeRef.named name).SpelledBy last := by
  constructor
  · rintro ⟨⟨kind, hk, hscalar, hkinds⟩, hname⟩
    have hjson : kind.isJson = true := hk.found ▸ Value.isJson_member h "kind"
    exact ⟨⟨kind, hk, ((Value.isScalar_iff hjson).mp hscalar).2, hkinds⟩, hname⟩
  · rintro ⟨⟨kind, hk, hh, hkinds⟩, hname⟩
    have hjson : kind.isJson = true := hk.found ▸ Value.isJson_member h "kind"
    exact ⟨⟨kind, hk, (Value.isScalar_iff hjson).mpr ⟨hk.present, hh⟩, hkinds⟩, hname⟩

theorem TypeRef.spelledBy_modified {ms : List Modifier} {name data : Value} :
    (modified ms name).SpelledBy data ↔
      ∃ last, data.Leads ms last ∧ (TypeRef.named name).SpelledBy last := by
  induction ms generalizing data with
  | nil => simp [Value.leads_nil, modified]
  | cons m ms ih =>
    have hstep : (modified (m :: ms) name).SpelledBy data ↔
        data.Has "kind" (.str m.word) ∧ (modified ms name).SpelledBy (data.member "ofType") := by
      cases m <;> rfl
    rw [hstep, ih]
    simp only [Value.leads_cons, and_assoc, exists_and_left]

/-! ## Reading level by level -/

theorem Value.Has.unique {data value other : Value} {key : String} (h : data.Has key value)
    (ho : data.Has key other) : value = other :=
  h.found.symm.trans ho.found

/-- What a level can be: an object without a kind or no object at all, one whose kind cannot be
looked up, a modifier, or a named type. -/
inductive Value.Level (data : Value) : Prop
  | bare : (∀ kind, ¬ data.Has "kind" kind) → Level data
  | odd {kind : Value} : data.Has "kind" kind → kind.hashable = false → Level data
  | modifier {m : Modifier} : data.Has "kind" (.str m.word) → Level data
  | plain {kind : Value} : data.Has "kind" kind → kind.hashable = true →
      (∀ m : Modifier, kind ≠ .str m.word) → Level data

theorem Value.level (data : Value) : data.Level := by
  by_cases hkind : ∃ kind, data.Has "kind" kind
  · obtain ⟨kind, hk⟩ := hkind
    cases hh : kind.hashable with
    | false => exact .odd hk hh
    | true =>
      by_cases hm : ∃ m : Modifier, kind = .str m.word
      · obtain ⟨m, rfl⟩ := hm
        exact .modifier hk
      · exact .plain hk hh (not_exists.mp hm)
  · exact .bare (not_exists.mp hkind)

namespace Introspection
variable {context : String} {levels : Nat} {inside : Bool} {data last kind : Value}

theorem readTypeRef_bare (context : String) (levels : Nat) (inside : Bool)
    (h : ∀ kind, ¬ data.Has "kind" kind) :
    ∃ reason, readTypeRef context (levels + 1) inside data = refuse reason := by
  rw [readTypeRef]
  split
  · exact ⟨_, rfl⟩
  · cases hk : required data "kind" context with
    | ok kind => exact absurd (required_eq_ok.mp hk) (h kind)
    | error fault =>
      obtain ⟨reason, rfl⟩ := (orderly_required ..).told fault hk
      exact ⟨reason, rfl⟩

theorem readTypeRef_odd (hk : data.Has "kind" kind) (hh : kind.hashable = false) :
    readTypeRef context (levels + 1) inside data = .error (.unhashable kind) := by
  have hnull : data.isNull = false := by
    cases data with
    | null => cases hk.isObject
    | _ => rfl
  simp [readTypeRef, hnull, required_eq_ok.mpr hk, hh]

theorem readTypeRef_modifier {m : Modifier} (hk : data.Has "kind" (.str m.word)) :
    readTypeRef context (levels + 1) inside data =
      if inside = true ∧ m = .nonNull then refuse (.doubledNonNull context)
      else (readTypeRef context levels (m == .nonNull) (data.member "ofType")).map m.wrap := by
  rw [readTypeRef_succ hk rfl]
  cases m with
  | list => simp [Modifier.word]; rfl
  | nonNull => simp [Modifier.word]; rfl

theorem readTypeRef_plain (hk : data.Has "kind" kind) (hh : kind.hashable = true)
    (hm : ∀ m : Modifier, kind ≠ .str m.word) :
    readTypeRef context (levels + 1) inside data =
      (required data "name" context).map .named := by
  have hnonNull : kind.same (.str "NON_NULL") ≠ true := mt Value.same_str_iff.mp (hm .nonNull)
  have hlist : kind.same (.str "LIST") ≠ true := mt Value.same_str_iff.mp (hm .list)
  rw [readTypeRef_succ hk hh, if_neg hnonNull, if_neg hlist]
  rfl

/-- What goes wrong inside a modifier goes wrong outside it. -/
theorem map_eq_error {α β : Type} {x : Except BuildFault α} {f : α → β} {fault : BuildFault} :
    x.map f = .error fault ↔ x = .error fault := by
  cases x <;> simp [Except.map]

/-- Among so many levels there is one with that kind, which cannot be looked up, and well-formed
modifiers lead to it. The first of them is no non-null where the data is inside one. -/
def OddWithin (levels : Nat) (inside : Bool) (data kind : Value) : Prop :=
  ∃ ms last, ms.length < levels ∧ Modifier.Undoubled ms ∧
    (inside = true → ms.head? ≠ some .nonNull) ∧ data.Leads ms last ∧ last.Has "kind" kind ∧
    kind.hashable = false

theorem not_oddWithin_zero : ¬ OddWithin 0 inside data kind := by
  rintro ⟨ms, last, hlength, -⟩
  exact Nat.not_lt_zero _ hlength

theorem oddWithin_odd {other : Value} (hother : data.Has "kind" other)
    (hh : other.hashable = false) : OddWithin (levels + 1) inside data kind ↔ other = kind := by
  constructor
  · rintro ⟨ms, last, -, -, -, hleads, hk, -⟩
    cases hleads with
    | here => exact hother.unique hk
    | into hm _ =>
      obtain rfl := hother.unique hm
      cases hh
  · rintro rfl
    exact ⟨[], data, Nat.succ_pos _, Modifier.undoubled_nil, by simp, .here, hother, hh⟩

theorem oddWithin_modifier {m : Modifier} (hm : data.Has "kind" (.str m.word)) :
    OddWithin (levels + 1) inside data kind ↔ ¬ (inside = true ∧ m = .nonNull) ∧
      OddWithin levels (m == .nonNull) (data.member "ofType") kind := by
  constructor
  · rintro ⟨ms, last, hlength, hms, hhead, hleads, hk, hh⟩
    cases hleads with
    | here =>
      obtain rfl := hm.unique hk
      cases hh
    | @into other rest _ _ ho hrest =>
      obtain rfl : m = other := Modifier.eq_of_word_eq (Value.str.inj (hm.unique ho))
      obtain ⟨hnext, hundoubled⟩ := Modifier.undoubled_cons.mp hms
      refine ⟨fun hdoubled => hhead hdoubled.1 (congrArg some hdoubled.2), rest, last,
        Nat.lt_of_succ_lt_succ hlength, hundoubled, fun hnonNull => ?_, hrest, hk, hh⟩
      exact hnext (by simpa using hnonNull)
  · rintro ⟨hdoubled, ms, last, hlength, hms, hhead, hleads, hk, hh⟩
    refine ⟨m :: ms, last, Nat.succ_lt_succ hlength, ?_, ?_, .into hm hleads, hk, hh⟩
    · exact Modifier.undoubled_cons.mpr ⟨fun hnonNull => hhead (by simp [hnonNull]), hms⟩
    · intro hinside hnonNull
      exact hdoubled ⟨hinside, Option.some.inj hnonNull⟩

/-- Neither a level without a kind nor one of a named type leads anywhere. -/
theorem not_oddWithin (h : ∀ other, data.Has "kind" other →
    other.hashable = true ∧ ∀ m : Modifier, other ≠ .str m.word) :
    ¬ OddWithin levels inside data kind := by
  rintro ⟨ms, last, -, -, -, hleads, hk, hodd⟩
  cases hleads with
  | here => simp [(h kind hk).1] at hodd
  | into hm _ => exact (h _ hm).2 _ rfl

/-- Reading ends in the failure of a lookup where the first levels lead to a kind that cannot be
looked up. -/
theorem readTypeRef_eq_unhashable :
    readTypeRef context levels inside data = .error (.unhashable kind) ↔
      OddWithin levels inside data kind := by
  induction levels generalizing inside data with
  | zero => simp [readTypeRef, refuse, not_oddWithin_zero]
  | succ levels ih =>
    cases data.level with
    | bare hbare =>
      obtain ⟨reason, hread⟩ := readTypeRef_bare context levels inside hbare
      rw [hread]
      exact iff_of_false (by simp [refuse]) (not_oddWithin fun other ho => absurd ho (hbare other))
    | odd hother hh =>
      rw [readTypeRef_odd hother hh, oddWithin_odd hother hh]
      simp
    | @modifier m hm =>
      rw [readTypeRef_modifier hm, oddWithin_modifier hm, ← ih]
      by_cases hdoubled : inside = true ∧ m = .nonNull
      · simp [hdoubled, refuse]
      · rw [if_neg hdoubled, map_eq_error]
        simp [hdoubled]
    | @plain other hother hh hm =>
      rw [readTypeRef_plain hother hh hm, map_eq_error]
      refine iff_of_false (fun h => ?_) (not_oddWithin fun found hf => ?_)
      · obtain ⟨reason, hreason⟩ := (orderly_required ..).told _ h
        cases hreason
      · obtain rfl := hother.unique hf
        exact ⟨hh, hm⟩

/-- Reading fails for a reason that is told or in a lookup. -/
theorem readTypeRef_fault {fault : BuildFault}
    (h : readTypeRef context levels inside data = .error fault) :
    (∃ reason, fault = .malformed reason) ∨ ∃ kind, fault = .unhashable kind := by
  induction levels generalizing inside data with
  | zero =>
    cases h
    exact .inl ⟨_, rfl⟩
  | succ levels ih =>
    cases data.level with
    | bare hbare =>
      obtain ⟨reason, hread⟩ := readTypeRef_bare context levels inside hbare
      rw [hread] at h
      cases h
      exact .inl ⟨reason, rfl⟩
    | odd hk hh =>
      rw [readTypeRef_odd hk hh] at h
      cases h
      exact .inr ⟨_, rfl⟩
    | modifier hm =>
      rw [readTypeRef_modifier hm] at h
      split at h
      · cases h
        exact .inl ⟨_, rfl⟩
      · exact ih (map_eq_error.mp h)
    | plain hk hh hm =>
      rw [readTypeRef_plain hk hh hm] at h
      exact .inl ((orderly_required ..).told fault (map_eq_error.mp h))

/-- Where the modifiers go on after the last level that is read, the reference is too deep. -/
theorem readTypeRef_deep {ms : List Modifier} (hleads : data.Leads ms last)
    (hms : Modifier.Undoubled ms) (hhead : inside = true → ms.head? ≠ some .nonNull) :
    readTypeRef context ms.length inside data = refuse (.deepReference context maxLevels) := by
  induction hleads generalizing inside with
  | here => rfl
  | @into m rest data last hm _ ih =>
    obtain ⟨hnext, hrest⟩ := Modifier.undoubled_cons.mp hms
    have hread := @ih (m == .nonNull) hrest fun hnonNull => hnext (by simpa using hnonNull)
    rw [List.length_cons, readTypeRef_modifier hm, hread, if_neg]
    · rfl
    · rintro ⟨hinside, rfl⟩
      exact hhead hinside rfl

/-! ## The verdict -/

theorem typeRef_eq_ok_iff (hdata : data.isJson = true) {t : TypeRef} :
    typeRef data context = .ok t ↔ ∃ ms last name, ms.length ≤ maxLevels - 1 ∧
      Modifier.Undoubled ms ∧ data.Leads ms last ∧ last.Names name ∧
      t = TypeRef.modified ms name := by
  rw [typeRef_eq_ok]
  constructor
  · rintro ⟨hspelled, hshallow, hnested⟩
    rw [← t.modified_modifiers] at hspelled hshallow hnested
    obtain ⟨last, hleads, hnamed⟩ := TypeRef.spelledBy_modified.mp hspelled
    rw [TypeRef.depth_modified] at hshallow
    exact ⟨t.modifiers, last, t.innermost, Nat.le_sub_one_of_lt hshallow,
      (TypeRef.wellNested_modified _ _).mp hnested, hleads,
      (Value.names_iff (hleads.isJson hdata)).mpr hnamed, t.modified_modifiers.symm⟩
  · rintro ⟨ms, last, name, hlength, hms, hleads, hnames, rfl⟩
    have hnamed := (Value.names_iff (hleads.isJson hdata)).mp hnames
    refine ⟨TypeRef.spelledBy_modified.mpr ⟨last, hleads, hnamed⟩, ?_,
      (TypeRef.wellNested_modified _ _).mpr hms⟩
    rw [TypeRef.depth_modified]
    exact Nat.lt_of_le_of_lt hlength (by decide)

theorem typeRef_eq_unhashable_iff (hdata : data.isJson = true) :
    typeRef data context = .error (.unhashable kind) ↔ ∃ ms last, ms.length < maxLevels ∧
      Modifier.Undoubled ms ∧ data.Leads ms last ∧ last.Has "kind" kind ∧
      kind.isContainer = true := by
  rw [typeRef, readTypeRef_eq_unhashable]
  have hkind : ∀ {ms : List Modifier} {last : Value}, data.Leads ms last → last.Has "kind" kind →
      (kind.isContainer = true ↔ kind.hashable = false) := fun hleads hk =>
    Value.isContainer_iff (hk.found ▸ Value.isJson_member (hleads.isJson hdata) "kind")
  constructor
  · rintro ⟨ms, last, hlength, hms, -, hleads, hk, hh⟩
    exact ⟨ms, last, hlength, hms, hleads, hk, (hkind hleads hk).mpr hh⟩
  · rintro ⟨ms, last, hlength, hms, hleads, hk, hc⟩
    exact ⟨ms, last, hlength, hms, by simp, hleads, hk, (hkind hleads hk).mp hc⟩

/-- A document is read as a type reference exactly if not too many levels of modifiers, of which no
non-null is directly inside another one, lead to a level with a name. The reference is then the name
with these modifiers around it in their order. Every other document is refused for a reason that is
told, unless such levels, those read at most, lead to a kind that is a list or an object: that cannot
be looked up. -/
theorem typeRef_verdict (hdata : data.isJson = true) (context : String) :
    (∀ t, typeRef data context = .ok t ↔ ∃ ms last name, ms.length ≤ maxLevels - 1 ∧
      Modifier.Undoubled ms ∧ data.Leads ms last ∧ last.Names name ∧
      t = TypeRef.modified ms name) ∧
    (∀ t, typeRef data context = .ok t → t.WellNested ∧ ∃ ms last, data.Leads ms last ∧
      last.Names t.innermost ∧ t = TypeRef.modified ms t.innermost) ∧
    (∀ fault, typeRef data context = .error fault →
      (∃ reason, fault = .malformed reason) ∨ ∃ kind, fault = .unhashable kind) ∧
    (∀ kind, typeRef data context = .error (.unhashable kind) ↔ ∃ ms last,
      ms.length < maxLevels ∧ Modifier.Undoubled ms ∧ data.Leads ms last ∧
      last.Has "kind" kind ∧ kind.isContainer = true) := by
  refine ⟨fun t => typeRef_eq_ok_iff hdata, fun t ht => ?_, fun fault => readTypeRef_fault,
    fun kind => typeRef_eq_unhashable_iff hdata⟩
  obtain ⟨ms, last, name, -, hms, hleads, hnames, rfl⟩ := (typeRef_eq_ok_iff hdata).mp ht
  rw [TypeRef.innermost_modified]
  exact ⟨(TypeRef.wellNested_modified ms name).mpr hms, ms, last, hleads, hnames, rfl⟩

/-- A required list whose items have a kind that is no text. -/
def listedKind : Value :=
  .object [("kind", .str "NON_NULL"), ("ofType", .object [("kind", .str "LIST"),
    ("ofType", .object [("kind", .list [.str "SCALAR"]), ("name", .str "Text")])])]

theorem typeRef_verdict_listedKind : listedKind.isJson = true ∧
    (∀ t, typeRef listedKind "Query.find" ≠ .ok t) ∧
    typeRef listedKind "Query.find" = .error (.unhashable (.list [.str "SCALAR"])) := by
  have hdata : listedKind.isJson = true := by decide
  obtain ⟨-, -, -, hodd⟩ := typeRef_verdict hdata "Query.find"
  have hread := (hodd (.list [.str "SCALAR"])).mpr ⟨[.nonNull, .list],
    .object [("kind", .list [.str "SCALAR"]), ("name", .str "Text")], by decide,
    Modifier.undoubled_cons.mpr ⟨by simp, Modifier.undoubled_cons.mpr ⟨by simp, .nil⟩⟩,
    .into ⟨rfl, rfl, by simp⟩ (.into ⟨rfl, rfl, by simp⟩ .here), ⟨rfl, rfl, by simp⟩, rfl⟩
  exact ⟨hdata, fun t ht => by simp [hread] at ht, hread⟩

end Introspection
end SchemaScribe
