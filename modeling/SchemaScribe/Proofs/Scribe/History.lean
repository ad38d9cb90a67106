import SchemaScribe.Scribe
import SchemaScribe.Proofs.Sdl.Tears
import SchemaScribe.Proofs.Introspection.Declarations
import Mathlib.Data.List.Induction

/-! # Histories of a scribe

What a scribe holds after any calls, in any surroundings: the server may answer anything, the files
may be anything, and both may change between calls. Only a call that succeeds changes the scribe.
The schema that it holds is the one of the last build, unless a result was fetched since, and it is
that schema which is written.
-/
namespace SchemaScribe.Scribe
open Success

/-! ## Calls -/

/-- A step that is taken at a desk. -/
structure Call where
  desk : Desk
  step : Step

namespace Call

def answer (call : Call) : Except ScribeFault Answer := (Scribe.step call.desk call.step).1

def after (call : Call) : Desk := (Scribe.step call.desk call.step).2

/-- What a build is made of: what is given, or else the result that the scribe holds. -/
def input? (call : Call) (given : Option Value) : Option Value :=
  given.or (call.desk.scribe.result.map .dict)

/-- Does the call succeed in fetching a result or in building a schema? -/
def renews (call : Call) : Bool :=
  match call.step, call.answer with
  | .fetch _, .ok _ | .build _, .ok _ => true
  | _, _ => false

end Call

def Step.isEdit : Step → Bool
  | .editResult .. => true
  | _ => false

/-- All that a call can do to a scribe. -/
inductive Turn (scribe : Scribe) : Step → Except ScribeFault Answer → Scribe → Prop
  | failed {step : Step} {fault : ScribeFault} : Turn scribe step (.error fault) scribe
  | added {name value : Value} : Turn scribe (.add name value) (.ok .scribe)
      { scribe with headers := Entries.put name value scribe.headers }
  | fetched {url : Option String} {members : Entries} :
      Turn scribe (.fetch url) (.ok (.data (.dict members)))
        { scribe with result := some members, schema := none, origin := none }
  | built {given : Option Value} {input : Value} {schema : Schema} {origin : Option Origin} :
      given.or (scribe.result.map .dict) = some input →
      Introspection.build input = .ok schema →
      Turn scribe (.build given) (.ok (.schema schema))
        { scribe with schema := some schema, origin }
  | wrote {path : String} {given : Option Value} : Turn scribe (.write path given) (.ok .nothing)
      scribe
  | edited {path : List Value} {value : Value} {changed : Scribe} :
      Turn scribe (.editResult path value) (.ok .nothing) changed

theorem eq_of_fetch {scribe next : Scribe} {url : Option String} {around : Surroundings}
    {data : Value} (h : (scribe.fetch url around).1 = .ok (data, next)) :
    ∃ members, data = .dict members ∧
      next = { scribe with result := some members, schema := none, origin := none } := by
  unfold fetch at h
  split at h
  · cases h
  dsimp only at h
  split at h
  · cases h
  next members _ =>
    cases h
    exact ⟨members, rfl, rfl⟩
  · cases h

theorem eq_of_build {scribe next : Scribe} {given : Option Value} {around : Surroundings}
    {schema : Schema} (h : (scribe.build given around).1 = .ok (schema, next)) :
    ∃ input origin, given.or (scribe.result.map .dict) = some input ∧
      Introspection.build input = .ok schema ∧
      next = { scribe with schema := some schema, origin } := by
  unfold build at h
  split at h
  · cases h
  next input hinput =>
    split at h
    · cases h
    next built hbuilt =>
      cases h
      exact ⟨input, _, hinput, hbuilt, rfl⟩

/-- A call that fails leaves the scribe alone, whatever the step. -/
theorem Turn.settle {α : Type} {desk : Desk} {step : Step} {answer : α → Answer}
    {outcome : Except ScribeFault (α × Scribe)} {around : Surroundings}
    (h : ∀ found scribe, outcome = .ok (found, scribe) →
      Turn desk.scribe step (.ok (answer found)) scribe) :
    Turn desk.scribe step (settle desk answer outcome around).1
      (settle desk answer outcome around).2.scribe := by
  cases outcome with
  | error fault => exact .failed
  | ok found => exact h found.1 found.2 rfl

theorem Call.turn (call : Call) :
    Turn call.desk.scribe call.step call.answer call.after.scribe := by
  obtain ⟨desk, step⟩ := call
  cases step with
  | add name value =>
    refine Turn.settle fun _ scribe h => ?_
    unfold add at h
    split at h
    · cases h
      exact .added
    · cases h
  | fetch url =>
    refine Turn.settle fun data scribe h => ?_
    obtain ⟨members, rfl, rfl⟩ := eq_of_fetch h
    exact .fetched
  | build given =>
    refine Turn.settle fun schema scribe h => ?_
    obtain ⟨input, origin, hinput, hschema, rfl⟩ := eq_of_build h
    exact .built hinput hschema
  | write path given =>
    refine Turn.settle fun _ scribe h => ?_
    obtain ⟨_, _, hsame⟩ := map_eq_ok.mp h
    cases hsame
    exact .wrote
  | editResult path value => exact Turn.settle fun _ scribe _ => .edited

theorem Turn.eq_of_error {scribe next : Scribe} {step : Step} {fault : ScribeFault}
    (h : Turn scribe step (.error fault) next) : next = scribe := by
  cases h
  rfl

theorem Turn.eq_of_fetched {scribe next : Scribe} {url : Option String} {answer : Answer}
    (h : Turn scribe (.fetch url) (.ok answer) next) :
    ∃ members, answer = .data (.dict members) ∧
      next = { scribe with result := some members, schema := none, origin := none } := by
  cases h with
  | fetched => exact ⟨_, rfl, rfl⟩

/-- A call that changes nothing from outside keeps the schema and the result, or it fetches a
result and leaves no schema, or it builds a schema and leaves the result. -/
theorem Call.schema_cases (call : Call) (hedit : call.step.isEdit = false) :
    (call.renews = false ∧ call.after.scribe.schema = call.desk.scribe.schema ∧
      call.after.scribe.result = call.desk.scribe.result) ∨
    (call.renews = true ∧ call.after.scribe.schema = none ∧
      ∀ schema, call.answer ≠ .ok (.schema schema)) ∨
    ∃ given input schema, call.step = .build given ∧ call.input? given = some input ∧
      Introspection.build input = .ok schema ∧ call.answer = .ok (.schema schema) ∧
      call.after.scribe.schema = some schema ∧
      call.after.scribe.result = call.desk.scribe.result := by
  have hturn := call.turn
  generalize hstep : call.step = step at *
  generalize hanswer : call.answer = answer at *
  generalize call.after.scribe = next at *
  cases hturn with
  | failed => exact .inl ⟨by cases step <;> simp [Call.renews, hstep, hanswer], rfl, rfl⟩
  | added | wrote => exact .inl ⟨by simp [Call.renews, hstep], rfl, rfl⟩
  | fetched => exact .inr (.inl ⟨by simp [Call.renews, hstep, hanswer], rfl, by simp⟩)
  | built hinput hschema =>
    exact .inr (.inr ⟨_, _, _, rfl, hinput, hschema, rfl, rfl, rfl⟩)
  | edited => cases hedit

/-! ## Histories -/

/-- From one scribe to another by calls of which each is made where the one before left the scribe,
in surroundings that may be anything. The result that was handed out is not changed meanwhile. -/
inductive History (start : Scribe) : List Call → Scribe → Prop
  | none : History start [] start
  | call {calls : List Call} {call : Call} : History start calls call.desk.scribe →
      call.step.isEdit = false → History start (calls ++ [call]) call.after.scribe

/-- The last call that fetched a result or built a schema is one that built this schema, and it did
so from this input. -/
structure BuiltLast (calls : List Call) (input : Value) (schema : Schema) : Prop where
  built : Introspection.build input = .ok schema
  last : ∃ before call after given, calls = before ++ call :: after ∧
    call.step = .build given ∧ call.input? given = some input ∧
    call.answer = .ok (.schema schema) ∧ ∀ later ∈ after, later.renews = false

theorem BuiltLast.append {calls : List Call} {input : Value} {schema : Schema} {call : Call}
    (h : BuiltLast calls input schema) (hcall : call.renews = false) :
    BuiltLast (calls ++ [call]) input schema := by
  obtain ⟨hbuilt, before, build, after, given, rfl, hstep, hinput, hanswer, hlater⟩ := h
  refine ⟨hbuilt, before, build, after ++ [call], given, by simp, hstep, hinput, hanswer, ?_⟩
  intro later hl
  rcases List.mem_append.mp hl with hl | hl
  · exact hlater later hl
  · exact List.mem_singleton.mp hl ▸ hcall

theorem BuiltLast.of_append {calls : List Call} {input : Value} {schema : Schema} {call : Call}
    (h : BuiltLast (calls ++ [call]) input schema) :
    call.renews = true ∧ call.answer = .ok (.schema schema) ∨
      call.renews = false ∧ BuiltLast calls input schema := by
  obtain ⟨hbuilt, before, build, after, given, heq, hstep, hinput, hanswer, hlater⟩ := h
  -- The last call is that build, or one of those after it.
  rcases List.eq_nil_or_concat after with rfl | ⟨after, last, rfl⟩
  · obtain ⟨rfl, hlast⟩ := List.append_inj' heq rfl
    cases hlast
    exact .inl ⟨by simp [Call.renews, hstep, hanswer], hanswer⟩
  · have hsplit : calls ++ [call] = (before ++ build :: after) ++ [last] := by simpa using heq
    obtain ⟨rfl, hlast⟩ := List.append_inj' hsplit rfl
    cases hlast
    exact .inr ⟨hlater call (by simp),
      ⟨hbuilt, before, build, after, given, rfl, hstep, hinput, hanswer,
        fun later hl => hlater later (by simp [hl])⟩⟩

theorem not_builtLast_nil {input : Value} {schema : Schema} : ¬ BuiltLast [] input schema := by
  rintro ⟨-, before, call, after, given, heq, -⟩
  simp at heq

theorem not_builtLast_of_renews {calls : List Call} {call : Call} {input : Value} {schema : Schema}
    (hrenews : call.renews = true) (hanswer : call.answer ≠ .ok (.schema schema)) :
    ¬ BuiltLast (calls ++ [call]) input schema := by
  intro h
  rcases h.of_append with ⟨-, ha⟩ | ⟨hkeeps, -⟩
  · exact hanswer ha
  · simp [hrenews] at hkeeps

/-- The scribe holds a schema exactly when the last call that fetched or built is one that built
that schema. -/
theorem schema_eq_some_iff {start scribe : Scribe} {calls : List Call}
    (h : History start calls scribe) (hstart : start.schema = none) {schema : Schema} :
    scribe.schema = some schema ↔ ∃ input, BuiltLast calls input schema := by
  -- Induction on the calls: the last one decides, or it changes nothing.
  induction h generalizing schema with
  | none => simp [hstart, not_builtLast_nil]
  | @call calls call _ hedit ih =>
    rcases call.schema_cases hedit with ⟨hkeeps, hschema, -⟩ | ⟨hrenews, hschema, hanswer⟩ |
      ⟨given, input, built, hstep, hinput, hbuilt, hanswer, hschema, -⟩
    · rw [hschema, ih]
      constructor
      · rintro ⟨input, hlast⟩
        exact ⟨input, hlast.append hkeeps⟩
      · rintro ⟨input, hlast⟩
        rcases hlast.of_append with ⟨hrenews, -⟩ | ⟨-, hlast⟩
        · simp [hkeeps] at hrenews
        · exact ⟨input, hlast⟩
    · simp [hschema, not_builtLast_of_renews hrenews (hanswer schema)]
    · rw [hschema, Option.some.injEq]
      constructor
      · rintro rfl
        exact ⟨input, hbuilt, calls, call, [], given, rfl, hstep, hinput, hanswer, by simp⟩
      · rintro ⟨other, hlast⟩
        rcases hlast.of_append with ⟨-, ha⟩ | ⟨hkeeps, -⟩
        · simpa [hanswer] using ha
        · simp [Call.renews, hstep, hanswer] at hkeeps

/-- As long as no build is given a result of its own, the schema is the one of the result that is
held with it. -/
theorem schema_of_result {start scribe : Scribe} {calls : List Call}
    (h : History start calls scribe) (hstart : start.schema = none)
    (hown : ∀ call ∈ calls, ∀ given, call.step = .build given → given = none) {schema : Schema}
    (hschema : scribe.schema = some schema) :
    ∃ members, scribe.result = some members ∧ Introspection.build (.dict members) = .ok schema := by
  -- Induction on the calls: no call but a fetch changes the result, and a fetch leaves no schema.
  induction h generalizing schema with
  | none => simp [hstart] at hschema
  | @call calls call _ hedit ih =>
    have hearlier : ∀ call ∈ calls, ∀ given, call.step = .build given → given = none :=
      fun earlier he => hown earlier (List.mem_append_left _ he)
    rcases call.schema_cases hedit with ⟨-, hs, hresult⟩ | ⟨-, hs, -⟩ |
      ⟨given, input, built, hstep, hinput, hbuilt, -, hs, hresult⟩
    · obtain ⟨members, hm, hb⟩ := ih hearlier (hs ▸ hschema)
      exact ⟨members, hresult ▸ hm, hb⟩
    · simp [hs] at hschema
    · obtain rfl : built = schema := by simpa [hs] using hschema
      obtain rfl : given = none := hown call (by simp) given hstep
      obtain ⟨members, hm, rfl⟩ : ∃ members, call.desk.scribe.result = some members ∧
          .dict members = input := by simpa [Call.input?] using hinput
      exact ⟨members, hresult ▸ hm, hbuilt⟩

/-! ## Writing -/

theorem writeText_eq_ok {path text : String} {declared : Nat} {around after : Surroundings} :
    writeText path text declared around = (.ok (), after) ↔
      '\x00' ∉ path.toList ∧ ∃ place, around.files.Writable path place ∧
        after = { around with
          files := { around.files with files := FileTree.put place text around.files.files }
          }.note (.wrote declared path) := by
  unfold writeText
  by_cases hnull : '\x00' ∈ path.toList
  · simp [hnull]
  rw [if_neg (by simpa using hnull)]
  constructor
  · intro h
    split at h
    · simp at h
    next files hw =>
      obtain ⟨place, hplace, rfl⟩ := FileTree.write_eq_ok.mp hw
      simp only [Prod.mk.injEq, true_and] at h
      exact ⟨hnull, place, hplace, h.symm⟩
  · rintro ⟨-, place, hplace, rfl⟩
    rw [FileTree.write_eq_ok.mpr ⟨place, hplace, rfl⟩]

/-- A torn text is never written. -/
theorem writeTorn_ne_ok (path : String) (tear : Sdl.Tear) (around : Surroundings) :
    (writeTorn path tear around).1 ≠ .ok () := by
  unfold writeTorn
  split
  · exact nofun
  · split <;> exact nofun

/-- What is tried with a torn text leaves the file empty. -/
theorem files_writeTorn {path : String} {place : Place} {around : Surroundings}
    (hnull : '\x00' ∉ path.toList) (hplace : around.files.Writable path place) (tear : Sdl.Tear) :
    (writeTorn path tear around).2.files =
      { around.files with files := FileTree.put place "" around.files.files } := by
  rw [writeTorn, if_neg (by simpa using hnull)]
  simp [FileTree.clear, hplace.unhindered, hplace.resolved]

theorem wire_writeRendering (path : String) (rendering : Rendering) (around : Surroundings) :
    (writeRendering path rendering around).2.wire = around.wire := by
  unfold writeRendering
  split
  · unfold writeText
    split
    · rfl
    · split <;> rfl
  · unfold writeTorn
    split
    · rfl
    · split <;> rfl

/-- The file that a path leads to has the text afterwards, and every other file is as it was. -/
structure Written (before after : FileTree) (path text : String) : Prop where
  usable : '\x00' ∉ path.toList
  placed : ∃ place, before.Writable path place ∧
    ∀ other, after.read? other = if other = place then some text else before.read? other

/-- A write of the schema that is held, whatever becomes of it: without a schema it is refused and
nothing is touched, and it succeeds exactly if the text of the schema is written. -/
def Call.WritesHeld (call : Call) (path : String) : Prop :=
  match call.desk.scribe.schema with
  | none => ∃ fault : ScribeFault, call.answer = .error fault ∧
      fault.notice.kind = .schemaBuild ∧ call.after = call.desk
  | some schema => call.answer = .ok .nothing ↔
      ∃ text, Sdl.print schema = .ok text ∧
        Written call.desk.around.files call.after.around.files path text

theorem written_of_writeText {path text : String} {declared : Nat} {around after : Surroundings}
    (h : writeText path text declared around = (.ok (), after)) :
    Written around.files after.files path text := by
  obtain ⟨hnull, place, hplace, rfl⟩ := writeText_eq_ok.mp h
  exact ⟨hnull, place, hplace, fun other => FileTree.read?_put around.files place other text⟩

theorem write_held_eq {scribe : Scribe} {schema : Schema} (hs : scribe.schema = some schema)
    {text : String} (hp : Sdl.print schema = .ok text) (path : String) (around : Surroundings) :
    scribe.write path none around =
      writeRendering path ⟨text, schema.types.length, Sdl.tear? schema⟩ around := by
  simp [write, textToWrite, render, hs, hp]

theorem write_held_error {scribe : Scribe} {schema : Schema} (hs : scribe.schema = some schema)
    {fault : Sdl.Unprintable} (hp : Sdl.print schema = .error fault) (path : String)
    (around : Surroundings) : scribe.write path none around = (.error (.print fault), around) := by
  simp [write, textToWrite, render, hs, hp]

/-- Where a torn text is to be written the file does not hold it afterwards. -/
theorem not_written_writeTorn {schema : Schema} {tear : Sdl.Tear} (ht : Sdl.tear? schema = some tear)
    {text path : String} (hp : Sdl.print schema = .ok text) (around : Surroundings) :
    ¬ Written around.files (writeTorn path tear around).2.files path text := by
  rintro ⟨hnull, place, hplace, hread⟩
  have hempty := hread place
  rw [files_writeTorn hnull hplace, FileTree.read?_put, if_pos rfl, if_pos rfl] at hempty
  rw [Sdl.print_eq_schemaText hp] at hempty
  exact Sdl.schemaText_ne_empty ht (Option.some.inj hempty).symm

theorem answer_write {call : Call} {path : String} (hstep : call.step = .write path none) :
    call.answer =
      (call.desk.scribe.write path none call.desk.around).1.map fun () => .nothing := by
  obtain ⟨⟨scribe, around⟩, step⟩ := call
  obtain rfl : step = .write path none := hstep
  simp only [Call.answer, Scribe.step]
  cases (scribe.write path none around).1 <;> rfl

theorem after_write {call : Call} {path : String} (hstep : call.step = .write path none) :
    call.after = { call.desk with
      around := (call.desk.scribe.write path none call.desk.around).2 } := by
  obtain ⟨⟨scribe, around⟩, step⟩ := call
  obtain rfl : step = .write path none := hstep
  simp only [Call.after, Scribe.step]
  cases (scribe.write path none around).1 <;> rfl

theorem Call.writesHeld {call : Call} {path : String} (hstep : call.step = .write path none) :
    call.WritesHeld path := by
  unfold WritesHeld
  cases hs : call.desk.scribe.schema with
  | none =>
    have hw : call.desk.scribe.write path none call.desk.around =
        (.error (.build (.malformed .noSchema)), call.desk.around) := by
      simp [write, textToWrite, hs]
    refine ⟨.build (.malformed .noSchema), ?_, rfl, ?_⟩
    · rw [answer_write hstep, hw]
      rfl
    · rw [after_write hstep, hw]
  | some schema =>
    show call.answer = .ok .nothing ↔ _
    have hdone : call.answer = .ok .nothing ↔
        (call.desk.scribe.write path none call.desk.around).1 = .ok () := by
      rw [answer_write hstep, map_eq_ok]
      exact ⟨fun ⟨_, hw, _⟩ => hw, fun hw => ⟨(), hw, rfl⟩⟩
    rw [hdone, after_write hstep]
    cases hp : Sdl.print schema with
    | error fault => simp [write_held_error hs hp]
    | ok text =>
      rw [write_held_eq hs hp, writeRendering]
      cases ht : Sdl.tear? schema with
      | none =>
        constructor
        · intro h
          exact ⟨text, rfl, written_of_writeText (Prod.ext h rfl)⟩
        · rintro ⟨_, ⟨⟩, hnull, place, hplace, -⟩
          rw [writeText_eq_ok.mpr ⟨hnull, place, hplace, rfl⟩]
      | some tear =>
        refine iff_of_false (writeTorn_ne_ok path tear _) ?_
        rintro ⟨_, ⟨⟩, hwritten⟩
        exact not_written_writeTorn ht hp _ hwritten

/-- A scribe that had no schema at first: whatever calls are made of it, in whatever surroundings,
one that fails changes nothing that it holds. A result that is fetched is kept and leaves no schema.
The schema is the one of the last build with no result fetched since, and that schema is the one
that is written. -/
theorem history_faithful {start scribe : Scribe} {calls : List Call}
    (h : History start calls scribe) (hstart : start.schema = none) :
    (∀ call ∈ calls, ∀ fault, call.answer = .error fault →
      call.after.scribe = call.desk.scribe) ∧
    (∀ call ∈ calls, ∀ url answer, call.step = .fetch url → call.answer = .ok answer →
      ∃ members, answer = .data (.dict members) ∧ call.after.scribe =
        { call.desk.scribe with result := some members, schema := none, origin := none }) ∧
    (∀ schema, scribe.schema = some schema ↔ ∃ input, BuiltLast calls input schema) ∧
    ((∀ call ∈ calls, ∀ given, call.step = .build given → given = none) →
      ∀ schema, scribe.schema = some schema → ∃ members, scribe.result = some members ∧
        Introspection.build (.dict members) = .ok schema) ∧
    (∀ call ∈ calls, ∀ path, call.step = .write path none → call.WritesHeld path) := by
  refine ⟨fun call _ fault hfault => ?_, fun call _ url answer hstep hanswer => ?_,
    fun schema => schema_eq_some_iff h hstart, fun hown schema => schema_of_result h hstart hown,
    fun call _ path => Call.writesHeld⟩
  · have hturn := call.turn
    rw [hfault] at hturn
    exact hturn.eq_of_error
  · have hturn := call.turn
    rw [hstep, hanswer] at hturn
    exact hturn.eq_of_fetched

/-- A schema is built from a result that is given. -/
def buildPalette : Call :=
  { desk := { scribe := {}, around := { wire := { replies := [] } } }
    step := .build (some Introspection.paletteResult) }

/-- There is no endpoint to fetch another result from. -/
def fetchNothing : Call := { desk := buildPalette.after, step := .fetch none }

def writePalette : Call := { desk := fetchNothing.after, step := .write "palette.graphql" none }

def paletteCalls : List Call := [buildPalette, fetchNothing, writePalette]

theorem paletteCalls_history : History {} paletteCalls writePalette.after.scribe := by
  have hbuild : History {} [buildPalette] buildPalette.after.scribe :=
    @History.call {} [] buildPalette .none rfl
  have hfetch : History {} [buildPalette, fetchNothing] fetchNothing.after.scribe :=
    @History.call {} [buildPalette] fetchNothing hbuild rfl
  exact @History.call {} [buildPalette, fetchNothing] writePalette hfetch rfl

theorem history_faithful_palette : History {} paletteCalls writePalette.after.scribe ∧
    ({} : Scribe).schema = none ∧
    fetchNothing.after.scribe = fetchNothing.desk.scribe ∧
    writePalette.after.scribe.schema = some Introspection.palette ∧
    (∃ input, BuiltLast paletteCalls input Introspection.palette) ∧
    writePalette.WritesHeld "palette.graphql" := by
  have hschema : writePalette.after.scribe.schema = some Introspection.palette := by
    rw [after_write (rfl : writePalette.step = .write "palette.graphql" none)]
    rfl
  obtain ⟨hfailed, -, hbuilt, -, hwrites⟩ := history_faithful paletteCalls_history rfl
  have hkept : fetchNothing.after.scribe = fetchNothing.desk.scribe :=
    hfailed fetchNothing (by simp [paletteCalls]) .noUrl rfl
  have hwrite : writePalette.WritesHeld "palette.graphql" :=
    hwrites writePalette (by simp [paletteCalls]) "palette.graphql" rfl
  exact ⟨paletteCalls_history, rfl, hkept, hschema, (hbuilt _).mp hschema, hwrite⟩

end SchemaScribe.Scribe
