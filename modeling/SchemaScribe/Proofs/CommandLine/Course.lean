import SchemaScribe.CommandLine.Tool
import SchemaScribe.Proofs.Endpoint.Reception
import SchemaScribe.Proofs.Scribe.History

/-! # The course of the tool

What can become of the work that options ask for. It stops before any request where the value of a
header was dropped. Otherwise one request is sent, and the work goes on as far as the reply carries
it: to data, to a schema, to the text of the schema and to the file. Until the file is opened no
file is touched.
-/
namespace SchemaScribe
open Success

/-- One request was sent, and no file was touched. -/
structure Surroundings.Asked (before after : Surroundings) : Prop where
  sent : ∃ request, after.wire.sent = before.wire.sent ++ [request]
  files : after.files = before.files

theorem Surroundings.Asked.note {before after : Surroundings} (h : before.Asked after)
    (entry : LogEntry) : before.Asked (after.note entry) :=
  ⟨h.sent, h.files⟩

/-! ## Asking -/

namespace Scribe
variable {scribe : Scribe}

/-- The introspection query can be written whatever headers go with it. -/
theorem exists_request (hnames : Headers.Named scribe.headers) (url : String) :
    ∃ request, (scribe.client url).request scribe.draft = .ok request ∧
      request.headers = Headers.merged [] scribe.headers := by
  have hbody : ∃ data, Client.payload scribe.draft = .ok data := ⟨_, rfl⟩
  obtain ⟨data, hdata⟩ := hbody
  exact ⟨_, Client.request_eq_ok hdata hnames.misnamed?, rfl⟩

theorem ask_eq (hnames : Headers.Named scribe.headers) (url : String) (wire : Wire) :
    (scribe.ask url wire).1 = Client.receive url wire.next ∧
      ∃ request, (scribe.ask url wire).2.sent = wire.sent ++ [request] ∧
        request.headers = Headers.merged [] scribe.headers := by
  obtain ⟨request, hrequest, hheaders⟩ := exists_request hnames url
  have hexecute : (scribe.client url).execute scribe.draft ((scribe.client url).start wire) = _ :=
    Client.execute_of_request hrequest
  have hurl : (scribe.client url).url = url := rfl
  refine ⟨?_, request, ?_, hheaders⟩
  · simp [ask, Client.run, hexecute, hurl, Wire.next]
  · simp [ask, Client.run, hexecute, Wire.afterPost]

/-- A fetch from an address asks once. It fetches what is delivered if that is an object. -/
theorem fetch_cases (hnames : Headers.Named scribe.headers) (url : String) (around : Surroundings) :
    ∃ after, around.Asked after ∧
      ((∃ members, around.wire.next.Delivers (.dict members) ∧
          scribe.fetch (some url) around = (.ok (.dict members,
            { scribe with result := some members, schema := none, origin := none }), after)) ∨
        ∃ fault, (∀ members, ¬ around.wire.next.Delivers (.dict members)) ∧
          (around.wire.next.isOfTransport = true → fault.notice.kind.isPromised = true) ∧
          scribe.fetch (some url) around = (.error fault, after)) := by
  obtain ⟨hanswer, request, hsent, -⟩ := ask_eq hnames url around.wire
  let after : Surroundings := { around.note (.introspecting url) with
    wire := (scribe.ask url around.wire).2 }
  have hasked : scribe.ask url (around.note (.introspecting url)).wire =
      (Client.receive url around.wire.next, after.wire) := Prod.ext hanswer rfl
  have hurl : (some url).or scribe.url = some url := rfl
  refine ⟨after, ⟨⟨request, hsent⟩, rfl⟩, ?_⟩
  simp only [fetch, hurl, hasked]
  cases hreceive : Client.receive url around.wire.next with
  | error fault =>
    refine .inr ⟨_, fun members h => ?_, fun hreply => ?_, rfl⟩
    · rw [Client.receive_eq_ok_iff.mpr h] at hreceive
      cases hreceive
    · exact Kind.isPromised_of_isOfEndpoint (Client.isOfEndpoint_of_receive hreply hreceive)
  | ok data =>
    have hdata : around.wire.next.Delivers data := Client.receive_eq_ok_iff.mp hreceive
    cases data with
    | dict members => exact .inl ⟨members, hdata, rfl⟩
    | _ =>
      refine .inr ⟨_, fun members h => ?_, fun _ => rfl, rfl⟩
      cases hdata.unique h

end Scribe

namespace CommandLine
namespace Options
variable {options : Options}

/-! ## The scribe -/

theorem mapM_id_eq_none {α : Type} {items : List (Option α)} :
    items.mapM id = none ↔ none ∈ items := by
  induction items with
  | nil => simp
  | cons item rest ih =>
    cases item with
    | none => simp
    | some a => cases hr : rest.mapM id <;> simp_all

theorem scribe_of_dropped (h : none ∈ options.headers) :
    options.scribe = .error .droppedHeader := by
  rw [scribe, mapM_id_eq_none.mpr h]

/-- Headers of the command line are named by texts. -/
theorem exists_scribe (h : none ∉ options.headers) :
    ∃ scribe, options.scribe = .ok scribe ∧ Headers.Named scribe.headers := by
  cases hheaders : options.headers.mapM id with
  | none => exact absurd (mapM_id_eq_none.mp hheaders) h
  | some headers =>
    refine ⟨_, by rw [Options.scribe, hheaders], Headers.Named.ofList fun header hh => ?_⟩
    obtain ⟨pair, -, rfl⟩ := List.mem_map.mp hh
    rfl

/-! ## The work -/

/-- What there is to write of a schema with a text. -/
def rendering (schema : Schema) (text : String) : Scribe.Rendering :=
  ⟨text, schema.types.length, Sdl.tear? schema⟩

/-- All that the work that options ask for can come to. -/
inductive Course (options : Options) (before : Surroundings) :
    Except WorkFault Unit → Surroundings → Prop
  | dropped : none ∈ options.headers → Course options before (.error .droppedHeader) before
  | unanswered {fault : ScribeFault} {after : Surroundings} : none ∉ options.headers →
      before.Asked after → (∀ members, ¬ before.wire.next.Delivers (.dict members)) →
      (before.wire.next.isOfTransport = true → fault.notice.kind.isPromised = true) →
      Course options before (.error (.scribe fault)) after
  | unbuilt {members : Entries} {fault : BuildFault} {after : Surroundings} :
      none ∉ options.headers → before.Asked after → before.wire.next.Delivers (.dict members) →
      Introspection.build (.dict members) = .error fault →
      Course options before (.error (.scribe (.build fault))) after
  | unprinted {members : Entries} {schema : Schema} {fault : Sdl.Unprintable}
      {after : Surroundings} : none ∉ options.headers → before.Asked after →
      before.wire.next.Delivers (.dict members) →
      Introspection.build (.dict members) = .ok schema → Sdl.print schema = .error fault →
      Course options before (.error (.scribe (.print fault))) after
  | aimless {members : Entries} {schema : Schema} {text : String} {after : Surroundings} :
      none ∉ options.headers → before.Asked after → before.wire.next.Delivers (.dict members) →
      Introspection.build (.dict members) = .ok schema → Sdl.print schema = .ok text →
      options.output = none → Course options before (.error .droppedPath) after
  | opened {members : Entries} {schema : Schema} {text path : String} {around : Surroundings} :
      none ∉ options.headers → before.Asked around → before.wire.next.Delivers (.dict members) →
      Introspection.build (.dict members) = .ok schema → Sdl.print schema = .ok text →
      options.output = some path →
      Course options before
        ((Scribe.writeRendering path (rendering schema text) around).1.mapError .scribe)
        (Scribe.writeRendering path (rendering schema text) around).2

section Fetched
variable {scribe : Scribe} {members : Entries} {before after : Surroundings}
  (hscribe : options.scribe = .ok scribe)
  (hfetch : scribe.fetch (some options.url) before = (.ok (.dict members,
    { scribe with result := some members, schema := none, origin := none }), after))
include hscribe hfetch

theorem prepare_of_unbuilt {fault : BuildFault}
    (h : Introspection.build (.dict members) = .error fault) :
    options.prepare before = (.error (.scribe (.build fault)), after) := by
  simp [prepare, hscribe, hfetch, Scribe.build, h]

theorem exists_prepared {schema : Schema} (h : Introspection.build (.dict members) = .ok schema) :
    ∃ built entry, built.schema = some schema ∧
      options.prepare before = (.ok built, after.note entry) := by
  simp [prepare, hscribe, hfetch, Scribe.build, h]

end Fetched

section Prepared
variable {built : Scribe} {schema : Schema} {before around : Surroundings}
  (hprepare : options.prepare before = (.ok built, around)) (hschema : built.schema = some schema)
include hprepare hschema

theorem work_of_unprinted {fault : Sdl.Unprintable} (h : Sdl.print schema = .error fault) :
    options.work before = (.error (.scribe (.print fault)), around) := by
  cases ho : options.output with
  | none => simp [work, hprepare, ho, Scribe.textToWrite, Scribe.render, hschema, h]
  | some path => simp [work, hprepare, ho, Scribe.write_held_error hschema h, Except.mapError]

theorem work_of_aimless {text : String} (h : Sdl.print schema = .ok text)
    (ho : options.output = none) : options.work before = (.error .droppedPath, around) := by
  simp [work, hprepare, ho, Scribe.textToWrite, Scribe.render, hschema, h]

theorem work_of_opened {text path : String} (h : Sdl.print schema = .ok text)
    (ho : options.output = some path) : options.work before =
      ((Scribe.writeRendering path (rendering schema text) around).1.mapError .scribe,
        (Scribe.writeRendering path (rendering schema text) around).2) := by
  simp [work, hprepare, ho, Scribe.write_held_eq hschema h, rendering]

end Prepared

theorem work_course (options : Options) (before : Surroundings) :
    Course options before (options.work before).1 (options.work before).2 := by
  by_cases hdropped : none ∈ options.headers
  · have hwork : options.work before = (.error .droppedHeader, before) := by
      simp [work, prepare, scribe_of_dropped hdropped]
    rw [hwork]
    exact .dropped hdropped
  obtain ⟨scribe, hscribe, hnames⟩ := exists_scribe hdropped
  obtain ⟨after, hasked, ⟨members, hdata, hfetch⟩ | ⟨fault, hnone, htold, hfetch⟩⟩ :=
    scribe.fetch_cases hnames options.url before
  case inr =>
    have hwork : options.work before = (.error (.scribe fault), after) := by
      simp [work, prepare, hscribe, hfetch]
    rw [hwork]
    exact .unanswered hdropped hasked hnone htold
  cases hbuild : Introspection.build (.dict members) with
  | error fault =>
    have hwork : options.work before = (.error (.scribe (.build fault)), after) := by
      simp [work, prepare_of_unbuilt hscribe hfetch hbuild]
    rw [hwork]
    exact .unbuilt hdropped hasked hdata hbuild
  | ok schema =>
    obtain ⟨built, entry, hschema, hprepare⟩ := exists_prepared hscribe hfetch hbuild
    have hnoted : before.Asked (after.note entry) := hasked.note entry
    cases hprint : Sdl.print schema with
    | error fault =>
      rw [work_of_unprinted hprepare hschema hprint]
      exact .unprinted hdropped hnoted hdata hbuild hprint
    | ok text =>
      cases houtput : options.output with
      | none =>
        rw [work_of_aimless hprepare hschema hprint houtput]
        exact .aimless hdropped hnoted hdata hbuild hprint houtput
      | some path =>
        rw [work_of_opened hprepare hschema hprint houtput]
        exact .opened hdropped hnoted hdata hbuild hprint houtput

end Options

/-- Zero is for work that is done. -/
theorem ending_eq_zero_iff {options : Options} {result : Except WorkFault Unit}
    {log : List LogEntry} : (options.outcome result log).ending = .exit 0 ↔ result = .ok () := by
  cases result with
  | ok done => exact iff_of_true rfl rfl
  | error fault =>
    cases hp : fault.notice.kind.isPromised <;> simp [Options.outcome, hp]

section Accepted
variable {options : Options} {arguments : List String} (h : Options.parse arguments = .ok options)
  (before : Surroundings)
include h

theorem outcome_of_parse : (run arguments before).1 =
    options.outcome (options.work before).1 (options.work before).2.log := by
  simp [run, h, Options.run]

theorem after_of_parse : (run arguments before).2 = (options.work before).2 := by
  simp [run, h, Options.run]

end Accepted

def plainArguments : List String := ["/graphql", "schema.graphql"]

def plainOptions : Options := { url := "/graphql", output := some "schema.graphql" }

theorem parse_plainArguments : Options.parse plainArguments = .ok plainOptions := rfl

end CommandLine
end SchemaScribe
