import Mathlib.Data.List.Chain
import SchemaScribe.IntrospectionQuery
import SchemaScribe.Proofs.Introspection.Modifiers
import SchemaScribe.Proofs.Sdl.Token

/-! # What the introspection query selects of a type reference

The query asks for the kind and the name of a reference on each level and, under `ofType`, for the
level inside it, to a depth that is fixed by its text. What a server answers ends where the query
does. References are read from such answers up to a depth of their own, which is not that of the
query.
-/
namespace SchemaScribe
open Introspection Success Sdl

/-- A field that a query asks for, with the fields that it asks for inside it. -/
inductive Selection where
  | field (name : String) (inner : List Selection)
deriving Repr

/-! ## Fragments of a query -/

namespace Query

/-- The word at the start of a text and the words behind it. A word is a name or a single mark. -/
def wordsFrom : List Char → List Char × List (List Char)
  | [] => ([], [])
  | c :: rest =>
    let (word, others) := wordsFrom rest
    if isNameChar c then (c :: word, others)
    else
      let others := if word.isEmpty then others else word :: others
      ([], if isIgnored c then others else [c] :: others)

def words (text : List Char) : List (List Char) :=
  let (word, others) := wordsFrom text
  if word.isEmpty then others else word :: others

/-- The fields up to the brace that closes them, and the words behind it. No more fields are read
than there is fuel. Arguments, directives and other fragments are not read. -/
def readFields : Nat → List (List Char) → Option (List Selection × List (List Char))
  | 0, _ => none
  | _, [] => none
  | fuel + 1, word :: rest =>
    if word = ['\x7d'] then some ([], rest)
    else
      match rest with
      | ['\x7b'] :: inside => do
        let (inner, behind) ← readFields fuel inside
        let (others, last) ← readFields fuel behind
        return (.field (String.ofList word) inner :: others, last)
      | _ => do
        let (others, last) ← readFields fuel rest
        return (.field (String.ofList word) [] :: others, last)

/-- The words behind the first place where certain words stand. -/
def behind (opening : List (List Char)) : List (List Char) → Option (List (List Char))
  | [] => none
  | word :: rest =>
    if opening.isPrefixOf (word :: rest) then some ((word :: rest).drop opening.length)
    else behind opening rest

/-- The fields that a fragment of a document asks for. -/
def fragment? (opening document : String) : Option (List Selection) := do
  let body ← behind (words opening.toList) (words document.toList)
  let (fields, _) ← readFields body.length body
  return fields

theorem wordsFrom_append (text more : List Char) :
    wordsFrom (text ++ '\n' :: more) =
      ((wordsFrom text).1, (wordsFrom text).2 ++ words more) := by
  induction text with
  | nil => rfl
  | cons c text ih =>
    rw [List.cons_append, wordsFrom, wordsFrom, ih]
    dsimp only
    split
    · rfl
    · split <;> split <;> rfl

/-- A line feed parts words. -/
theorem words_append (text more : List Char) :
    words (text ++ '\n' :: more) = words text ++ words more := by
  rw [words, words, wordsFrom_append]
  dsimp only
  split <;> rfl

theorem words_lineText (line : List Char) (lines : List String) :
    words (line ++ lineText lines) = words line ++ lines.flatMap fun line => words line.toList := by
  induction lines generalizing line with
  | nil => simp
  | cons next lines ih =>
    rw [lineText_cons, List.cons_append, words_append, ih, List.flatMap_cons]

end Query

/-- The fields of a level that has so many others inside it. -/
def fieldsInside : Nat → List Selection
  | 0 => [.field "name" [], .field "kind" []]
  | n + 1 => [.field "name" [], .field "kind" [], .field "ofType" (fieldsInside n)]

/-- What the introspection query asks for of a type reference. -/
def typeRefFields : List Selection :=
  [.field "kind" [], .field "name" [], .field "ofType" (fieldsInside 8)]

def typeRefOpening : String := "fragment TypeRef on __Type \x7b"

theorem words_introspectionQuery :
    Query.words introspectionQuery.toList =
      introspectionQueryLines.flatMap fun line => Query.words line.toList := by
  obtain ⟨line, lines, hlines⟩ : ∃ line lines, introspectionQueryLines = line :: lines :=
    ⟨_, _, rfl⟩
  rw [introspectionQuery, hlines, toList_joinWith_lines, Query.words_lineText, List.flatMap_cons]

set_option maxRecDepth 4000 in
theorem fragment_typeRef :
    Query.fragment? typeRefOpening introspectionQuery = some typeRefFields := by
  rw [Query.fragment?, words_introspectionQuery]
  simp only [introspectionQueryLines, List.flatMap_cons, typeRefOpening]
  repeat rw [String.toList_ofList]
  rfl

/-! ## Answers under a selection -/

namespace Selection

/-- What is asked for inside the first field of a name. -/
def find? (name : String) : List Selection → Option (List Selection)
  | [] => none
  | .field other inner :: rest => if other = name then some inner else find? name rest

def Selects (selected : List Selection) (name : String) : Prop :=
  (find? name selected).isSome = true

/-- The answer to a field of a type with a kind, a name and an answer to what is inside it. -/
def fieldAnswer (kind name : Value) (ofType : List Selection → Value) : Selection → String × Value
  | .field key inner =>
    (key, if key = "kind" then kind else if key = "name" then name
      else if key = "ofType" then ofType inner else .null)

def answer (kind name : Value) (ofType : List Selection → Value) (selected : List Selection) :
    Value :=
  .object (selected.map (fieldAnswer kind name ofType))

variable {kind name : Value} {ofType : List Selection → Value} {selected inner : List Selection}

theorem member_answer {key : String} (hi : find? key selected = some inner) :
    (answer kind name ofType selected).member key =
      (fieldAnswer kind name ofType (.field key inner)).2 := by
  rw [answer, Value.member_object]
  induction selected with
  | nil => cases hi
  | cons first rest ih =>
    obtain ⟨other, inside⟩ := first
    rw [find?] at hi
    rw [List.map_cons, fieldAnswer, List.lookup_cons]
    split at hi
    · next hother =>
      subst hother
      cases hi
      simp only [beq_self_eq_true, Option.getD_some, fieldAnswer]
    · next hother =>
      rw [beq_eq_false_iff_ne.mpr (Ne.symm hother)]
      exact ih hi

theorem has_kind_answer (hs : Selects selected "kind") (hk : kind ≠ .null) :
    (answer kind name ofType selected).Has "kind" kind := by
  obtain ⟨inner, hi⟩ := Option.isSome_iff_exists.mp hs
  exact ⟨rfl, member_answer hi, hk⟩

theorem has_name_answer (hs : Selects selected "name") (hn : name ≠ .null) :
    (answer kind name ofType selected).Has "name" name := by
  obtain ⟨inner, hi⟩ := Option.isSome_iff_exists.mp hs
  exact ⟨rfl, member_answer hi, hn⟩

/-- The kind is asked for on each of so many levels, and the level inside it under `ofType`. -/
def Reaches : Nat → List Selection → Prop
  | 0, _ => True
  | n + 1, selected => Selects selected "kind" ∧
    ∃ inner, find? "ofType" selected = some inner ∧ Reaches n inner

end Selection

namespace TypeRef
open Selection

/-- What a server answers of a reference whose named type has a kind, under what is asked for. -/
def answerUnder (kind : String) : TypeRef → List Selection → Value
  | .named name => Selection.answer (.str kind) name fun _ => .null
  | .list item => Selection.answer (.str "LIST") .null (item.answerUnder kind)
  | .nonNull item => Selection.answer (.str "NON_NULL") .null (item.answerUnder kind)

/-- All levels of the reference are asked for, to the name at its end. -/
def CoveredBy : TypeRef → List Selection → Prop
  | .named _, selected => Selects selected "kind" ∧ Selects selected "name"
  | .list item, selected | .nonNull item, selected => Selects selected "kind" ∧
    ∃ inner, find? "ofType" selected = some inner ∧ item.CoveredBy inner

variable {t : TypeRef} {selected : List Selection} {kind : String}

/-- The whole of a reference is spelled out where all of it is asked for. -/
theorem spelledBy_answerUnder (hc : t.CoveredBy selected) {name : String}
    (hname : t.innermost = .str name) (hkind : ∀ m : Modifier, kind ≠ m.word) :
    t.SpelledBy (t.answerUnder kind selected) := by
  induction t generalizing selected with
  | named n =>
    obtain rfl : n = .str name := hname
    exact ⟨⟨.str kind, has_kind_answer hc.1 (by simp), rfl, mt Value.str.inj (hkind .list),
      mt Value.str.inj (hkind .nonNull)⟩, has_name_answer hc.2 (by simp)⟩
  | list item ih | nonNull item ih =>
    obtain ⟨hk, inner, hi, hitem⟩ := hc
    refine ⟨has_kind_answer hk (by simp), ?_⟩
    rw [answerUnder, member_answer hi]
    exact ih hitem hname

/-- The modifiers on the levels that are asked for lead into the answer. -/
theorem leads_answerUnder {n : Nat} (hr : Reaches n selected) (hn : n ≤ t.modifiers.length) :
    ∃ last, (t.answerUnder kind selected).Leads (t.modifiers.take n) last := by
  induction n generalizing t selected with
  | zero => exact ⟨_, .here⟩
  | succ n ih =>
    obtain ⟨hk, inner, hi, hinner⟩ := hr
    cases t with
    | named name => exact absurd hn (Nat.not_succ_le_zero n)
    | list item | nonNull item =>
      obtain ⟨last, hleads⟩ := ih hinner (Nat.le_of_succ_le_succ hn)
      refine ⟨last, .into (has_kind_answer hk (by simp)) ?_⟩
      rw [answerUnder, member_answer hi]
      exact hleads

end TypeRef

/-! ## How deep the query goes -/

theorem coveredBy_fieldsInside {t : TypeRef} {n : Nat} :
    t.CoveredBy (fieldsInside n) ↔ t.depth ≤ n := by
  induction t generalizing n with
  | named name => cases n <;> simp [TypeRef.CoveredBy, Selection.Selects, fieldsInside,
      Selection.find?, TypeRef.depth]
  | list item ih | nonNull item ih =>
    cases n with
    | zero => simp [TypeRef.CoveredBy, fieldsInside, Selection.find?, TypeRef.depth]
    | succ n => simp [TypeRef.CoveredBy, Selection.Selects, fieldsInside, Selection.find?,
        TypeRef.depth, ih]

theorem coveredBy_typeRefFields {t : TypeRef} : t.CoveredBy typeRefFields ↔ t.depth ≤ 9 := by
  cases t with
  | named name => simp [TypeRef.CoveredBy, Selection.Selects, typeRefFields, Selection.find?,
      TypeRef.depth]
  | list item | nonNull item =>
    have hitem : item.CoveredBy (fieldsInside 8) ↔ item.depth + 1 ≤ 9 :=
      coveredBy_fieldsInside.trans Nat.succ_le_succ_iff.symm
    rw [TypeRef.depth, ← hitem]
    simp [TypeRef.CoveredBy, Selection.Selects, typeRefFields, Selection.find?]

theorem reaches_fieldsInside {m n : Nat} (h : m ≤ n) : Selection.Reaches m (fieldsInside n) := by
  induction m generalizing n with
  | zero => trivial
  | succ m ih =>
    obtain ⟨n, rfl⟩ := Nat.exists_eq_succ_of_ne_zero (Nat.ne_zero_of_lt h)
    exact ⟨rfl, fieldsInside n, rfl, ih (Nat.le_of_succ_le_succ h)⟩

/-- The query goes deeper than references are read. -/
theorem reaches_typeRefFields : Selection.Reaches maxLevels typeRefFields :=
  ⟨rfl, fieldsInside 8, rfl, reaches_fieldsInside (by decide)⟩

namespace Introspection
variable {t : TypeRef} {selected : List Selection} {kind : String}

theorem typeRef_of_covered (hnested : t.WellNested) (hc : t.CoveredBy selected) {name : String}
    (hname : t.innermost = .str name) (hkind : ∀ m : Modifier, kind ≠ m.word)
    (hshallow : t.depth < maxLevels) (context : String) :
    typeRef (t.answerUnder kind selected) context = .ok t :=
  typeRef_eq_ok.mpr ⟨TypeRef.spelledBy_answerUnder hc hname hkind, hshallow, hnested⟩

theorem typeRef_of_deep (hnested : t.WellNested) (hr : Selection.Reaches maxLevels selected)
    (hdeep : maxLevels ≤ t.depth) (context : String) :
    typeRef (t.answerUnder kind selected) context =
      refuse (.deepReference context maxLevels) := by
  rw [← t.length_modifiers] at hdeep
  obtain ⟨last, hleads⟩ : ∃ last,
      (t.answerUnder kind selected).Leads (t.modifiers.take maxLevels) last :=
    TypeRef.leads_answerUnder hr hdeep
  have hms : Modifier.Undoubled (t.modifiers.take maxLevels) := by
    rw [← t.modified_modifiers, TypeRef.wellNested_modified] at hnested
    exact hnested.take maxLevels
  have hread : readTypeRef context (t.modifiers.take maxLevels).length false _ = _ :=
    readTypeRef_deep hleads hms (by simp)
  rwa [List.length_take_of_le hdeep] at hread

theorem kindWord_ne_word (body : TypeBody) (m : Modifier) : body.kindWord ≠ m.word := by
  cases body <;> cases m <;> simp [TypeBody.kindWord, Modifier.word]

/-- The introspection query asks for all of a reference with nine modifiers at most. Of what a server
answers to it, the reference is read as it is if it has seven modifiers at most, and refused as too
deep if it has more, whether or not the answer ends before the reference does. It is never read as
another one. -/
theorem typeRef_answerUnder {name : String} (hnested : t.WellNested)
    (hname : t.innermost = .str name) (body : TypeBody) (context : String) :
    ∃ selected, Query.fragment? typeRefOpening introspectionQuery = some selected ∧
      (t.CoveredBy selected ↔ t.depth ≤ 9) ∧
      (t.depth ≤ maxLevels - 1 →
        typeRef (t.answerUnder body.kindWord selected) context = .ok t) ∧
      (maxLevels ≤ t.depth → typeRef (t.answerUnder body.kindWord selected) context =
        .error (.malformed (.deepReference context maxLevels))) := by
  refine ⟨typeRefFields, fragment_typeRef, coveredBy_typeRefFields, fun hshallow => ?_,
    fun hdeep => typeRef_of_deep hnested reaches_typeRefFields hdeep context⟩
  have hcovered : t.CoveredBy typeRefFields :=
    coveredBy_typeRefFields.mpr (Nat.le_trans hshallow (by decide))
  exact typeRef_of_covered hnested hcovered hname (kindWord_ne_word body)
    (Nat.lt_of_le_of_lt hshallow (by decide)) context

/-- A list of lists, eight deep, of a scalar. -/
def octuple : TypeRef := .modified (List.replicate 8 .list) (.str "Text")

theorem typeRef_answerUnder_octuple : octuple.WellNested ∧ octuple.innermost = .str "Text" ∧
    ∃ selected, Query.fragment? typeRefOpening introspectionQuery = some selected ∧
      octuple.CoveredBy selected ∧
      typeRef (octuple.answerUnder "SCALAR" selected) "Query.cells" =
        .error (.malformed (.deepReference "Query.cells" 8)) := by
  have hnested : octuple.WellNested := trivial
  have hname : octuple.innermost = .str "Text" := rfl
  obtain ⟨selected, hselected, hcovered, -, hdeep⟩ :=
    typeRef_answerUnder hnested hname .scalar "Query.cells"
  exact ⟨hnested, hname, selected, hselected, hcovered.mpr (by decide), hdeep (by decide)⟩

/-- An answer that spells out all of a reference, as it was asked to, can be refused. -/
theorem octuple_refused : octuple.WellNested ∧
    Query.fragment? typeRefOpening introspectionQuery = some typeRefFields ∧
    octuple.CoveredBy typeRefFields ∧
    typeRef (octuple.answerUnder "SCALAR" typeRefFields) "Query.cells" ≠ .ok octuple := by
  have hnested : octuple.WellNested := trivial
  have hrefused : typeRef (octuple.answerUnder "SCALAR" typeRefFields) "Query.cells" = _ :=
    typeRef_of_deep hnested reaches_typeRefFields (by decide) "Query.cells"
  refine ⟨hnested, fragment_typeRef, coveredBy_typeRefFields.mpr (by decide), fun h => ?_⟩
  cases hrefused.symm.trans h

end Introspection
end SchemaScribe
