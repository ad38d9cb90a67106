import SchemaScribe.Proofs.CommandLine.Course
import SchemaScribe.Proofs.Sdl.Tears

/-! # Endings of the tool

The tool is to end with an exit code, whatever the server answers and whatever becomes of the file.
It does so as long as the values that it was given were not dropped and the answer, if there is one,
is either refused for a reason or has a text that can be encoded, unless the file is not opened
anyway. An answer whose labels are texts and whose texts are whole always is; one with a number for
a name is not.
-/
namespace SchemaScribe
namespace CommandLine

/-- The tool ends with an exit code, and with a line about the error unless the code is zero. -/
inductive Exits (outcome : Outcome) : Nat → Prop
  | done : outcome.ending = .exit 0 → Exits outcome 0
  | told {log message : String} : outcome.ending = .exit 1 →
      outcome.errors = log ++ "error: " ++ message ++ "\n" → Exits outcome 1

/-- An answer that is refused for a reason, or one with a text that can be sent to the path: it is
whole, or the file is not opened for it. -/
inductive Answerable (options : Options) (files : FileTree) (members : Entries) : Prop
  | refused {reason : Malformed} :
      Introspection.build (.dict members) = .error (.malformed reason) →
      Answerable options files members
  | written {schema : Schema} {text path : String} :
      Introspection.build (.dict members) = .ok schema → Sdl.print schema = .ok text →
      options.output = some path → '\x00' ∉ path.toList → Sdl.tear? schema = none →
      Answerable options files members
  | unopened {schema : Schema} {text path : String} {fault : WriteFault} :
      Introspection.build (.dict members) = .ok schema → Sdl.print schema = .ok text →
      options.output = some path → '\x00' ∉ path.toList → (files.clear path).1 = .error fault →
      Answerable options files members

variable {options : Options} {before after : Surroundings} {result : Except WorkFault Unit}

/-! ## Outcomes -/

theorem exits_of_promised {fault : WorkFault} (h : fault.notice.kind.isPromised = true)
    (log : List LogEntry) : Exits (options.outcome (.error fault) log) 1 := by
  have houtcome : options.outcome (.error fault) log =
      { ending := .exit 1
        errors := (if options.verbose then Text.joinWith "" (log.map logLine) else "") ++
          "error: " ++ fault.notice.message ++ "\n" } := by
    simp [Options.outcome, h]
  rw [houtcome]
  exact .told rfl rfl

/-- A failure ends in an exit code if it is promised. -/
theorem exits_error_iff {fault : WorkFault} {log : List LogEntry} :
    (∃ code, Exits (options.outcome (.error fault) log) code) ↔
      fault.notice.kind.isPromised = true := by
  constructor
  · rintro ⟨code, hexits⟩
    by_contra h
    have hending : (options.outcome (.error fault) log).ending = .failed fault.notice := by
      simp [Options.outcome, h]
    cases hexits with
    | done he | told he _ =>
      rw [hending] at he
      cases he
  · intro h
    exact ⟨1, exits_of_promised h log⟩

theorem isPromised_build_iff {fault : BuildFault} :
    fault.notice.kind.isPromised = true ↔ ∃ reason, fault = .malformed reason := by
  cases fault <;> simp [BuildFault.notice, Notice.schemaBuild, Notice.unfit, Kind.isPromised]

theorem isPromised_print (fault : Sdl.Unprintable) : fault.notice.kind.isPromised = false := by
  cases fault <;> rfl

end CommandLine

/-! ## Writes -/

namespace Scribe
section Clean
variable {path : String} (h : '\x00' ∉ path.toList) (around : Surroundings)
include h

/-- Unless a null is in the path, a whole text is written or the file is at fault. -/
theorem writeText_of_clean (text : String) (declared : Nat) :
    (writeText path text declared around).1 = .ok () ∨
      ∃ fault, (writeText path text declared around).1 = .error (.file path fault) := by
  unfold writeText
  rw [if_neg (by simpa using h)]
  split
  next fault _ _ => exact .inr ⟨fault, rfl⟩
  · exact .inl rfl

/-- Unless a null is in the path, a torn text is not encoded or the file is at fault. -/
theorem writeTorn_of_clean (tear : Sdl.Tear) :
    ((writeTorn path tear around).1 = .error (.torn tear) ∧
        (around.files.clear path).1 = .ok ()) ∨
      ∃ fault, (writeTorn path tear around).1 = .error (.file path fault) ∧
        (around.files.clear path).1 = .error fault := by
  unfold writeTorn
  rw [if_neg (by simpa using h)]
  split
  next fault files hc => exact .inr ⟨fault, rfl, congrArg Prod.fst hc⟩
  next files hc => exact .inl ⟨rfl, congrArg Prod.fst hc⟩

end Clean

theorem writeRendering_of_null {path : String} (h : '\x00' ∈ path.toList)
    (rendering : Rendering) (around : Surroundings) :
    writeRendering path rendering around = (.error .nullInPath, around) := by
  unfold writeRendering
  split
  · simp [writeText, h]
  · simp [writeTorn, h]

end Scribe

namespace CommandLine
variable {options : Options} {before after : Surroundings} {result : Except WorkFault Unit}

/-! ## The ending -/

section Answerable
variable {files : FileTree} {members : Entries}

theorem answerable_of_error {fault : BuildFault}
    (h : Introspection.build (.dict members) = .error fault) :
    Answerable options files members ↔ ∃ reason, fault = .malformed reason := by
  constructor
  · intro ha
    cases ha with
    | refused hr => exact ⟨_, Except.error.inj (h.symm.trans hr)⟩
    | written hr _ _ _ _ | unopened hr _ _ _ _ => cases h.symm.trans hr
  · rintro ⟨reason, rfl⟩
    exact .refused h

theorem answerable_of_ok {schema : Schema} (h : Introspection.build (.dict members) = .ok schema) :
    Answerable options files members ↔ ∃ text path, Sdl.print schema = .ok text ∧
      options.output = some path ∧ '\x00' ∉ path.toList ∧
      (Sdl.tear? schema = none ∨ ∃ fault, (files.clear path).1 = .error fault) := by
  constructor
  · intro ha
    cases ha with
    | refused hr => cases h.symm.trans hr
    | written hr ht ho hp hwhole =>
      cases h.symm.trans hr
      exact ⟨_, _, ht, ho, hp, .inl hwhole⟩
    | unopened hr ht ho hp hc =>
      cases h.symm.trans hr
      exact ⟨_, _, ht, ho, hp, .inr ⟨_, hc⟩⟩
  · rintro ⟨text, path, ht, ho, hp, hwhole | ⟨fault, hc⟩⟩
    · exact .written h ht ho hp hwhole
    · exact .unopened h ht ho hp hc

theorem forall_delivered_iff {reply : Reply} {P : Entries → Prop}
    (h : reply.Delivers (.dict members)) :
    (∀ other, reply.Delivers (.dict other) → P other) ↔ P members := by
  constructor
  · intro hall
    exact hall members h
  · intro hp other ho
    cases h.unique ho
    exact hp

end Answerable

/-- The write of a text ends in an exit code exactly if the text is whole or the file is not
opened. -/
theorem exits_opened_iff {schema : Schema} {text path : String} {around : Surroundings}
    (hnull : '\x00' ∉ path.toList) (hfiles : around.files = before.files) (log : List LogEntry) :
    (∃ code, Exits (options.outcome ((Scribe.writeRendering path (Options.rendering schema text)
        around).1.mapError .scribe) log) code) ↔
      Sdl.tear? schema = none ∨ ∃ fault, (before.files.clear path).1 = .error fault := by
  unfold Scribe.writeRendering Options.rendering
  cases ht : Sdl.tear? schema with
  | none =>
    refine iff_of_true ?_ (.inl rfl)
    rcases Scribe.writeText_of_clean hnull around text schema.types.length with hw | ⟨fault, hw⟩
    · exact ⟨0, hw ▸ .done rfl⟩
    · exact ⟨1, hw ▸ exits_of_promised rfl log⟩
  | some tear =>
    dsimp only
    rcases Scribe.writeTorn_of_clean hnull around tear with ⟨hw, hc⟩ | ⟨fault, hw, hc⟩
    · rw [hw]
      refine exits_error_iff.trans (iff_of_false ?_ ?_)
      · simp [WorkFault.notice, ScribeFault.notice, Kind.isPromised]
      · simp [← hfiles, hc]
    · exact iff_of_true ⟨1, hw ▸ exits_of_promised rfl log⟩ (.inr ⟨fault, hfiles ▸ hc⟩)

/-- A course ends in an exit code exactly if nothing was dropped and every answer that there is can
be answered for. -/
theorem exits_iff_of_course (h : options.Course before result after)
    (hreply : before.wire.next.isOfTransport = true) (log : List LogEntry) :
    (∃ code, Exits (options.outcome result log) code) ↔
      none ∉ options.headers ∧
        ∀ members, before.wire.next.Delivers (.dict members) →
          Answerable options before.files members := by
  cases h with
  | dropped hd =>
    rw [exits_error_iff]
    exact iff_of_false (by simp [WorkFault.notice, Kind.isPromised]) fun hall => hall.1 hd
  | unanswered hn _ hnone htold =>
    rw [exits_error_iff]
    exact ⟨fun _ => ⟨hn, fun members hdata => absurd hdata (hnone members)⟩, fun _ => htold hreply⟩
  | unbuilt hn _ hdata hb =>
    rw [exits_error_iff, forall_delivered_iff hdata, answerable_of_error hb]
    exact isPromised_build_iff.trans ⟨fun hreason => ⟨hn, hreason⟩, And.right⟩
  | unprinted hn _ hdata hb hp =>
    rw [exits_error_iff, forall_delivered_iff hdata, answerable_of_ok hb]
    simp [WorkFault.notice, ScribeFault.notice, isPromised_print, hp]
  | aimless hn _ hdata hb hp ho =>
    rw [exits_error_iff, forall_delivered_iff hdata, answerable_of_ok hb]
    simp [WorkFault.notice, Notice.unfit, Kind.isPromised, ho]
  | @opened members schema text path around hn hasked hdata hb hp ho =>
    rw [forall_delivered_iff hdata, answerable_of_ok hb]
    by_cases hnull : '\x00' ∈ path.toList
    · rw [Scribe.writeRendering_of_null hnull]
      refine exits_error_iff.trans ?_
      simp [WorkFault.notice, ScribeFault.notice, Kind.isPromised, ho, hnull]
    have hright : (∃ text path, Sdl.print schema = .ok text ∧ options.output = some path ∧
        '\x00' ∉ path.toList ∧ (Sdl.tear? schema = none ∨
          ∃ fault, (before.files.clear path).1 = .error fault)) ↔
        Sdl.tear? schema = none ∨ ∃ fault, (before.files.clear path).1 = .error fault := by
      simp [hp, ho, hnull]
    rw [hright, and_iff_right hn]
    exact exits_opened_iff hnull hasked.files log

/-- A course without a schema does not end with zero. -/
theorem Exits.of_no_schema {code : Nat} (h : options.Course before result after)
    (hnone : ∀ members schema, before.wire.next.Delivers (.dict members) →
      Introspection.build (.dict members) ≠ .ok schema) {log : List LogEntry}
    (hexits : Exits (options.outcome result log) code) : code = 1 := by
  cases hexits with
  | told _ _ => rfl
  | done hending =>
    have hdone : result = .ok () := ending_eq_zero_iff.mp hending
    cases h with
    | opened _ _ hdata hb _ _ => exact absurd hb (hnone _ _ hdata)
    | _ => cases hdone

/-- A schema of a document whose labels are texts has a text. -/
theorem print_of_labelled {result : Value} {schema : Schema} (hl : result.Labelled)
    (hb : Introspection.build result = .ok schema) :
    Sdl.print schema = .ok (Sdl.schemaText schema) := by
  obtain ⟨items, houtline⟩ := Introspection.exists_outline_of_build hb
  refine Sdl.print_of_isString fun type ht => ?_
  obtain ⟨entry, hdesc, hentry⟩ := houtline.body_labelled hl ht
  exact hdesc.isString_joinedNames hentry

/-- A document whose labels are texts is refused for a reason, or it has a text. -/
theorem answerable_of_labelled {files : FileTree} {members : Entries}
    (hl : Value.Labelled (.dict members))
    (hpath : ∀ schema, Introspection.build (.dict members) = .ok schema →
      Sdl.tear? schema = none ∧ ∃ path, options.output = some path ∧ '\x00' ∉ path.toList) :
    Answerable options files members := by
  cases hb : Introspection.build (.dict members) with
  | ok schema =>
    obtain ⟨hwhole, path, ho, hnull⟩ := hpath schema hb
    exact .written hb (print_of_labelled hl hb) ho hnull hwhole
  | error fault =>
    obtain ⟨reason, rfl⟩ := (Introspection.orderly_build hl).told fault hb
    exact .refused hb

/-- With arguments that are accepted, whatever the endpoint replies or fails to, and whatever the
file system does, the tool ends in an exit code exactly if no value of a header was dropped and
every answer with data in it can be answered for: it is refused for a reason, or its text can be
sent to the path. An answer whose labels are texts or null and in which no text is torn can be, given
a path for its text. If the labels are texts or null and no schema is built from the answer, the tool
ends in a line about the error and the exit code 1. -/
theorem run_exits_iff {arguments : List String} (hparse : Options.parse arguments = .ok options)
    (hreply : before.wire.next.isOfTransport = true) :
    ((∃ code, Exits (run arguments before).1 code) ↔ none ∉ options.headers ∧
      ∀ members, before.wire.next.Delivers (.dict members) →
        Answerable options before.files members) ∧
    (none ∉ options.headers →
      (∀ members, before.wire.next.Delivers (.dict members) → Value.Labelled (.dict members)) →
      (∀ path, options.output = some path → '\x00' ∉ path.toList →
        (∀ members, before.wire.next.Delivers (.dict members) → Value.Untorn (.dict members)) →
        ∃ code, Exits (run arguments before).1 code) ∧
      ((∀ members schema, before.wire.next.Delivers (.dict members) →
        Introspection.build (.dict members) ≠ .ok schema) → Exits (run arguments before).1 1)) := by
  have hcourse := options.work_course before
  have hiff := exits_iff_of_course hcourse hreply (options.work before).2.log
  rw [outcome_of_parse hparse]
  refine ⟨hiff, fun hheaders hlabelled => ⟨fun path ho hnull huntorn => ?_, fun hnone => ?_⟩⟩
  · exact hiff.mpr ⟨hheaders, fun members hdata =>
      answerable_of_labelled (hlabelled members hdata) fun schema hb =>
        ⟨Sdl.tear?_of_untorn (huntorn members hdata) hb, path, ho, hnull⟩⟩
  · obtain ⟨code, hcode⟩ := hiff.mpr ⟨hheaders, fun members hdata =>
      answerable_of_labelled (hlabelled members hdata) fun schema hb =>
        absurd hb (hnone members schema hdata)⟩
    cases hcode.of_no_schema hcourse hnone
    exact hcode

/-- Surroundings with a server that does not answer. -/
def silentSurroundings : Surroundings := { wire := { replies := [] } }

theorem run_exits_iff_silent : Options.parse plainArguments = .ok plainOptions ∧
    silentSurroundings.wire.next.isOfTransport = true ∧
    Exits (run plainArguments silentSurroundings).1 1 := by
  have hreply : silentSurroundings.wire.next.isOfTransport = true := rfl
  have hnone : ∀ members, ¬ silentSurroundings.wire.next.Delivers (.dict members) :=
    fun members h => h
  obtain ⟨-, hexits⟩ := run_exits_iff parse_plainArguments hreply
  have hheaders : none ∉ plainOptions.headers := List.not_mem_nil
  obtain ⟨-, htold⟩ := hexits hheaders fun members h => absurd h (hnone members)
  exact ⟨parse_plainArguments, hreply, htold fun members schema h => absurd h (hnone members)⟩

/-- An answer that has a number for the name of a type. -/
def numberedOctets : List UInt8 :=
  ("\x7b\"data\": \x7b\"__schema\": \x7b\"types\": [\x7b\"kind\": \"SCALAR\", " ++
    "\"name\": 5\x7d]\x7d\x7d\x7d").toList.map fun c => c.toNat.toUInt8

def numberedResult : Entries :=
  [(.str "__schema", .dict [(.str "types", .list [
    .dict [(.str "kind", .str "SCALAR"), (.str "name", .int 5)]])])]

def numberedSurroundings : Surroundings :=
  { wire := { replies := [.response 200 .utf8 numberedOctets] } }

theorem numberedResult_delivered :
    numberedSurroundings.wire.next.Delivers (.dict numberedResult) := by
  have hdata : Client.Delivers 200 (Text.Charset.utf8.decode numberedOctets) (.dict numberedResult) := by
    refine Client.delivers_of_ascii ⟨by decide, by decide⟩ (by decide +kernel) ?_
    rw [Json.read, String.toList_append, String.toList_ofList, String.toList_ofList]
    rfl
  exact hdata

theorem build_numberedResult : Introspection.build (.dict numberedResult) =
    .error (.nameNotText (.int 5)) := rfl

/-- The tool has no exit code for an answer that is malformed in this way. -/
theorem run_numbered_escapes : Options.parse plainArguments = .ok plainOptions ∧
    numberedSurroundings.wire.next.isOfTransport = true ∧
    ¬ ∃ code, Exits (run plainArguments numberedSurroundings).1 code := by
  have hreply : numberedSurroundings.wire.next.isOfTransport = true := rfl
  refine ⟨parse_plainArguments, hreply, fun hexits => ?_⟩
  rw [outcome_of_parse parse_plainArguments] at hexits
  have hcourse := plainOptions.work_course numberedSurroundings
  obtain ⟨-, hall⟩ := (exits_iff_of_course hcourse hreply _).mp hexits
  obtain ⟨reason, hreason⟩ :=
    (answerable_of_error build_numberedResult).mp (hall _ numberedResult_delivered)
  cases hreason

end CommandLine
end SchemaScribe
