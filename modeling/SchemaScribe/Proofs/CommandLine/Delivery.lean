import SchemaScribe.Proofs.CommandLine.Course

/-! # What the tool delivers

The tool exits with zero exactly if the text of a schema is in the file that the path leads to. To
run it again with the same answer changes nothing more. Unless it comes to open that file, it leaves
everything as it was. A torn text leaves the file that was opened for it empty.
-/
namespace SchemaScribe
open Success

/-! ## Files -/

namespace FileTree
variable {tree : FileTree} {path : String} {place : Place}

/-- The octets of the file at a place: its text in UTF-8, with every line end as it is. -/
def octets? (tree : FileTree) (place : Place) : Option ByteArray :=
  (tree.read? place).map String.toUTF8

/-- The file at the place is opened for a text that is written at the path, whether or not all of
the text gets there. -/
structure Opens (tree : FileTree) (path : String) (place : Place) : Prop where
  resolved : tree.resolve path = .ok place
  begun : ∀ mishap, tree.mishaps.lookup path = some mishap → mishap.left ≠ none

theorem put_put (place : Place) (text : String) (files : List (Place × String)) :
    put place text (put place text files) = put place text files := by
  induction files with
  | nil => simp [put]
  | cons file rest ih =>
    obtain ⟨p, t⟩ := file
    by_cases hp : p = place
    · simp [put, hp]
    · simp [put, hp, ih]

theorem clear_of_not_opens (h : ∀ place, ¬ tree.Opens path place) : (tree.clear path).2 = tree := by
  unfold clear
  split
  · rfl
  next hm =>
    cases hr : tree.resolve path with
    | error fault => rfl
    | ok place =>
      refine absurd ⟨hr, fun mishap hfound => ?_⟩ (h place)
      rw [hfound, Option.filter_eq_none_iff] at hm
      simpa using hm mishap rfl

theorem write_of_not_opens (h : ∀ place, ¬ tree.Opens path place) (text : String) :
    (tree.write path text).2 = tree := by
  unfold write
  cases hm : tree.mishaps.lookup path with
  | none =>
    cases hr : tree.resolve path with
    | error fault => rfl
    | ok place => exact absurd ⟨hr, by simp [hm]⟩ (h place)
  | some mishap =>
    cases hl : mishap.left with
    | none => simp [afterMishap, hl]
    | some left =>
      cases hr : tree.resolve path with
      | error fault => simp [afterMishap, hl, hr]
      | ok place => exact absurd ⟨hr, by simp [hm, hl]⟩ (h place)

/-! ### Places for files

Whether a path leads to a place for a file depends on the directories alone. -/

section OtherFiles
variable (files : List (Place × String)) {next : Place}

theorem enter_files {name : String} (h : tree.enter place name = .ok next) :
    { tree with files }.enter place name = .ok next := by
  unfold enter at h
  split at h
  next hstay => rwa [enter, if_pos hstay]
  next hstay =>
    split at h
    next hup => rwa [enter, if_neg hstay, if_pos hup]
    next hup =>
      split at h
      · cases h
      next hshort =>
        dsimp only at h
        split at h
        -- A file in the way of a path only decides how the path fails.
        next hdirectory =>
          rw [enter, if_neg hstay, if_neg hup, if_neg hshort]
          exact (if_pos hdirectory).trans h
        · split at h <;> cases h

theorem foldlM_enter_files {names : List String} (h : names.foldlM tree.enter place = .ok next) :
    names.foldlM ({ tree with files }.enter) place = .ok next := by
  induction names generalizing place with
  | nil => exact h
  | cons name rest ih =>
    rw [List.foldlM_cons] at h ⊢
    obtain ⟨entered, hname, hrest⟩ := bind_eq_ok.mp h
    exact bind_eq_ok.mpr ⟨entered, enter_files files hname, ih hrest⟩

theorem resolve_files (h : tree.resolve path = .ok place) :
    { tree with files }.resolve path = .ok place := by
  unfold resolve at h ⊢
  split at h
  · cases h
  next hempty =>
    rw [if_neg hempty]
    split at h
    · cases h
    next hlong =>
      rw [if_neg hlong]
      dsimp only at h ⊢
      split at h
      · cases h
      next last hlast =>
        obtain ⟨entered, hentered, htarget⟩ := bind_eq_ok.mp h
        exact bind_eq_ok.mpr ⟨entered, foldlM_enter_files files hentered, htarget⟩

theorem Writable.withFiles (h : tree.Writable path place) :
    { tree with files }.Writable path place :=
  ⟨h.unhindered, resolve_files files h.resolved⟩

end OtherFiles
end FileTree

/-! ## Runs -/

namespace CommandLine
variable {options : Options} {before after : Surroundings} {result : Except WorkFault Unit}
  {schema : Schema} {text path : String} {place : Place}

/-- No header keeps the request from being sent, and what is replied to it is a document from which
a schema with that text is built. -/
structure Rendered (options : Options) (before : Surroundings) (schema : Schema) (text : String) :
    Prop where
  sendable : none ∉ options.headers
  built : ∃ members, before.wire.next.Delivers (.dict members) ∧
    Introspection.build (.dict members) = .ok schema
  printed : Sdl.print schema = .ok text

/-- The options name a path, it leads to the place, and the write there will not fail. -/
structure Usable (options : Options) (files : FileTree) (path : String) (place : Place) : Prop where
  given : options.output = some path
  clean : '\x00' ∉ path.toList
  writable : files.Writable path place

/-- The options name a path, it leads to the place, and the file there is opened. -/
structure Reached (options : Options) (files : FileTree) (path : String) (place : Place) : Prop where
  given : options.output = some path
  clean : '\x00' ∉ path.toList
  opens : files.Opens path place

theorem Rendered.unique {other : Schema} {otherText : String}
    (h : Rendered options before schema text) (ho : Rendered options before other otherText) :
    schema = other ∧ text = otherText := by
  obtain ⟨members, hdata, hb⟩ := h.built
  obtain ⟨members', hdata', hb'⟩ := ho.built
  cases hdata.unique hdata'
  cases hb.symm.trans hb'
  exact ⟨rfl, Except.ok.inj (h.printed.symm.trans ho.printed)⟩

theorem sent_iff_of_course (h : options.Course before result after) :
    (∃ request, after.wire.sent = before.wire.sent ++ [request]) ↔ none ∉ options.headers := by
  cases h with
  | dropped hd => simp [hd]
  | unanswered hn hasked | unbuilt hn hasked | unprinted hn hasked | aimless hn hasked =>
    exact iff_of_true hasked.sent hn
  | opened hn hasked _ _ _ _ =>
    rw [Scribe.wire_writeRendering]
    exact iff_of_true hasked.sent hn

/-- A course comes to the write of a text, or it fails before and leaves the files alone. -/
theorem rendered_or_of_course (h : options.Course before result after) :
    (∃ schema text path around, Rendered options before schema text ∧ options.output = some path ∧
      around.files = before.files ∧
      result =
        (Scribe.writeRendering path (Options.rendering schema text) around).1.mapError .scribe ∧
      after = (Scribe.writeRendering path (Options.rendering schema text) around).2) ∨
    (∃ fault, result = .error fault) ∧ after.files = before.files ∧
      ∀ schema text path, Rendered options before schema text → options.output ≠ some path := by
  cases h with
  | dropped hd =>
    exact .inr ⟨⟨_, rfl⟩, rfl, fun schema text path hr => absurd hd hr.sendable⟩
  | unanswered hn hasked hnone _ =>
    refine .inr ⟨⟨_, rfl⟩, hasked.files, fun schema text path hr => ?_⟩
    obtain ⟨members, hdata, -⟩ := hr.built
    exact absurd hdata (hnone members)
  | unbuilt hn hasked hdata hb =>
    refine .inr ⟨⟨_, rfl⟩, hasked.files, fun schema text path hr => ?_⟩
    obtain ⟨members, hother, hbuilt⟩ := hr.built
    cases hdata.unique hother
    cases hb.symm.trans hbuilt
  | unprinted hn hasked hdata hb hp =>
    refine .inr ⟨⟨_, rfl⟩, hasked.files, fun schema text path hr => ?_⟩
    obtain ⟨members, hother, hbuilt⟩ := hr.built
    cases hdata.unique hother
    cases hb.symm.trans hbuilt
    cases hp.symm.trans hr.printed
  | aimless hn hasked hdata hb hp ho =>
    refine .inr ⟨⟨_, rfl⟩, hasked.files, fun schema text path _ => ?_⟩
    simp [ho]
  | @opened members schema text path around hn hasked hdata hb hp ho =>
    exact .inl ⟨schema, text, path, around, ⟨hn, ⟨members, hdata, hb⟩, hp⟩, ho, hasked.files, rfl,
      rfl⟩

/-- What a text that is rendered for a path comes to is what the write of it comes to. -/
theorem course_of_rendered (h : options.Course before result after)
    (hr : Rendered options before schema text) (ho : options.output = some path) :
    ∃ around : Surroundings, around.files = before.files ∧
      result =
        (Scribe.writeRendering path (Options.rendering schema text) around).1.mapError .scribe ∧
      after = (Scribe.writeRendering path (Options.rendering schema text) around).2 := by
  rcases rendered_or_of_course h with
    ⟨other, otherText, otherPath, around, hother, hgiven, hfiles, hresult, hafter⟩ | ⟨-, -, hnone⟩
  · obtain ⟨rfl, rfl⟩ := hother.unique hr
    obtain rfl : otherPath = path := Option.some.inj (hgiven.symm.trans ho)
    exact ⟨around, hfiles, hresult, hafter⟩
  · exact absurd ho (hnone schema text path hr)

theorem mapError_eq_ok {outcome : Except ScribeFault Unit} :
    outcome.mapError WorkFault.scribe = .ok () ↔ outcome = .ok () := by
  cases outcome <;> simp [Except.mapError]

/-- A whole text that is rendered for a usable path is written. -/
theorem done_of_rendered (h : options.Course before result after)
    (hr : Rendered options before schema text) (hwhole : Sdl.tear? schema = none)
    (hu : Usable options before.files path place) :
    result = .ok () ∧ after.files =
      { before.files with files := FileTree.put place text before.files.files } := by
  obtain ⟨around, hfiles, rfl, rfl⟩ := course_of_rendered h hr hu.given
  have hwrite : Scribe.writeText path text schema.types.length around = (.ok (), _) :=
    Scribe.writeText_eq_ok.mpr ⟨hu.clean, place, hfiles.symm ▸ hu.writable, rfl⟩
  rw [Scribe.writeRendering, Options.rendering, hwhole, hwrite]
  exact ⟨rfl, by rw [← hfiles]; rfl⟩

/-- A torn text that is rendered for a usable path leaves the file empty. -/
theorem emptied_of_rendered (h : options.Course before result after)
    (hr : Rendered options before schema text) {tear : Sdl.Tear}
    (htorn : Sdl.tear? schema = some tear) (hu : Usable options before.files path place) :
    result ≠ .ok () ∧ after.files =
      { before.files with files := FileTree.put place "" before.files.files } := by
  obtain ⟨around, hfiles, rfl, rfl⟩ := course_of_rendered h hr hu.given
  have hwrite : Scribe.writeRendering path (Options.rendering schema text) around =
      Scribe.writeTorn path tear around := by
    rw [Scribe.writeRendering, Options.rendering, htorn]
  rw [hwrite, ← hfiles]
  exact ⟨mt mapError_eq_ok.mp (Scribe.writeTorn_ne_ok path tear around),
    Scribe.files_writeTorn hu.clean (hfiles.symm ▸ hu.writable) tear⟩

theorem usable_of_done (h : options.Course before (.ok ()) after) :
    ∃ schema text path place, Rendered options before schema text ∧ Sdl.tear? schema = none ∧
      Usable options before.files path place := by
  rcases rendered_or_of_course h with
    ⟨schema, text, path, around, hr, hgiven, hfiles, hresult, hafter⟩ | ⟨⟨fault, hf⟩, -, -⟩
  · have hdone := mapError_eq_ok.mp hresult.symm
    rw [Scribe.writeRendering, Options.rendering] at hdone hafter
    cases ht : Sdl.tear? schema with
    | none =>
      rw [ht] at hdone hafter
      have hwrite : Scribe.writeText path text schema.types.length around = (.ok (), after) :=
        Prod.ext hdone hafter.symm
      obtain ⟨hclean, place, hplace, -⟩ := Scribe.writeText_eq_ok.mp hwrite
      exact ⟨schema, text, path, place, hr, ht, hgiven, hclean, hfiles ▸ hplace⟩
    | some tear =>
      rw [ht] at hdone
      exact absurd hdone (Scribe.writeTorn_ne_ok path tear around)
  · cases hf

/-- A write that does not come to open the file leaves the files as they are. -/
theorem files_of_not_opens {rendering : Scribe.Rendering} {around : Surroundings}
    (h : '\x00' ∉ path.toList → ∀ place, ¬ around.files.Opens path place) :
    (Scribe.writeRendering path rendering around).2.files = around.files := by
  unfold Scribe.writeRendering Scribe.writeText Scribe.writeTorn
  by_cases hnull : '\x00' ∈ path.toList
  · have hfound : path.toList.contains '\x00' = true := by simpa using hnull
    split <;> rw [if_pos hfound]
  have hclean : ¬ path.toList.contains '\x00' = true := by simpa using hnull
  split
  · have hwrite := FileTree.write_of_not_opens (h hnull) rendering.text
    rw [if_neg hclean]
    split <;> next hw => exact (congrArg Prod.snd hw).symm.trans hwrite
  · have hclear := FileTree.clear_of_not_opens (h hnull)
    rw [if_neg hclean]
    split <;> next hc => exact (congrArg Prod.snd hc).symm.trans hclear

/-- Until the file is reached the files stay as they are. -/
theorem files_of_not_reached (h : options.Course before result after)
    (hnone : ∀ schema text path place, Rendered options before schema text →
      ¬ Reached options before.files path place) : after.files = before.files := by
  rcases rendered_or_of_course h with
    ⟨schema, text, path, around, hr, hgiven, hfiles, rfl, rfl⟩ | ⟨-, hfiles, -⟩
  · rw [← hfiles]
    exact files_of_not_opens fun hclean place ho =>
      hnone schema text path place hr ⟨hgiven, hclean, hfiles ▸ ho⟩
  · exact hfiles

/-- Another run that is answered as the first one was finds the file as it is to be. -/
theorem run_again {arguments : List String} (hparse : Options.parse arguments = .ok options)
    (hr : Rendered options before schema text) (hwhole : Sdl.tear? schema = none)
    (hu : Usable options before.files path place) {again : Surroundings}
    (hfiles : again.files =
      { before.files with files := FileTree.put place text before.files.files })
    (hnext : again.wire.next = before.wire.next) :
    (run arguments again).1.ending = .exit 0 ∧ (run arguments again).2.files = again.files := by
  have hrendered : Rendered options again schema text :=
    ⟨hr.sendable, hnext ▸ hr.built, hr.printed⟩
  have husable : Usable options again.files path place :=
    ⟨hu.given, hu.clean, hfiles ▸ hu.writable.withFiles _⟩
  rw [outcome_of_parse hparse, ending_eq_zero_iff, after_of_parse hparse]
  obtain ⟨hdone, hwritten⟩ := done_of_rendered (options.work_course again) hrendered hwhole husable
  refine ⟨hdone, hwritten.trans ?_⟩
  rw [hfiles, FileTree.put_put]

/-- With arguments that are accepted, whatever the endpoint replies and whatever the files are: one
request is sent unless the value of a header was dropped. The tool exits with zero exactly if the
reply is a document from which a schema with a text that can be encoded is built, and the path can be
written. Then the file there has the octets of that text, no other file has changed, and another run
with the same answer changes nothing more. Unless that file is opened, everything is as it was. -/
theorem run_delivers {arguments : List String} (hparse : Options.parse arguments = .ok options)
    (before : Surroundings) :
    let outcome := (run arguments before).1
    let after := (run arguments before).2
    ((∃ request, after.wire.sent = before.wire.sent ++ [request]) ↔ none ∉ options.headers) ∧
    (outcome.ending = .exit 0 ↔ ∃ schema text path place,
      Rendered options before schema text ∧ Sdl.tear? schema = none ∧
        Usable options before.files path place) ∧
    (∀ schema text path place, Rendered options before schema text → Sdl.tear? schema = none →
      Usable options before.files path place →
      after.files.octets? place = some text.toUTF8 ∧
      (∀ other, other ≠ place → after.files.octets? other = before.files.octets? other) ∧
      ∀ again : Surroundings, again.files = after.files → again.wire.next = before.wire.next →
        (run arguments again).1.ending = .exit 0 ∧ (run arguments again).2.files = after.files) ∧
    ((∀ schema text path place, Rendered options before schema text →
      ¬ Reached options before.files path place) → after.files = before.files) := by
  intro outcome after
  have hafter : after = (options.work before).2 := after_of_parse hparse before
  have hcourse : options.Course before (options.work before).1 after :=
    hafter ▸ options.work_course before
  have hzero : outcome.ending = .exit 0 ↔ (options.work before).1 = .ok () := by
    rw [show outcome = _ from outcome_of_parse hparse before, ending_eq_zero_iff]
  refine ⟨sent_iff_of_course hcourse, ?_, fun schema text path place hr hwhole hu => ?_,
    files_of_not_reached hcourse⟩
  · rw [hzero]
    constructor
    · intro hdone
      exact usable_of_done (hdone ▸ hcourse)
    · rintro ⟨schema, text, path, place, hr, hwhole, hu⟩
      exact (done_of_rendered hcourse hr hwhole hu).1
  · obtain ⟨-, hfiles⟩ := done_of_rendered hcourse hr hwhole hu
    have hread : ∀ other, after.files.read? other =
        if other = place then some text else before.files.read? other := fun other =>
      hfiles ▸ FileTree.read?_put before.files place other text
    refine ⟨?_, fun other hother => ?_, fun again hsame hnext => ?_⟩
    · simp [FileTree.octets?, hread]
    · simp [FileTree.octets?, hread, hother]
    · rw [← hsame]
      exact run_again hparse hr hwhole hu (hsame.trans hfiles) hnext

def scalarOctets : List UInt8 :=
  ("\x7b\"data\": \x7b\"__schema\": \x7b\"types\": [\x7b\"kind\": \"SCALAR\", " ++
    "\"name\": \"Text\"\x7d]\x7d\x7d\x7d").toList.map fun c => c.toNat.toUInt8

def scalarResult : Entries :=
  [(.str "__schema", .dict [(.str "types", .list [
    .dict [(.str "kind", .str "SCALAR"), (.str "name", .str "Text")]])])]

/-- A server with a schema, and a file with another one. -/
def scalarSurroundings : Surroundings :=
  { wire := { replies := [.response 200 .utf8 scalarOctets] }
    files := { files := [(["schema.graphql"], "scalar Number\n")] } }

theorem scalarResult_delivered : scalarSurroundings.wire.next.Delivers (.dict scalarResult) := by
  have hdata : Client.Delivers 200 (Text.Charset.utf8.decode scalarOctets) (.dict scalarResult) := by
    refine Client.delivers_of_ascii ⟨by decide, by decide⟩ (by decide +kernel) ?_
    rw [Json.read, String.toList_append, String.toList_ofList, String.toList_ofList]
    rfl
  exact hdata

def scalarSchema : Schema := { types := [{ name := .str "Text", body := .scalar }] }

theorem build_scalarResult : Introspection.build (.dict scalarResult) = .ok scalarSchema := rfl

theorem print_scalarSchema : Sdl.print scalarSchema = .ok "scalar Text\n" := rfl

theorem scalarSurroundings_usable :
    Usable plainOptions scalarSurroundings.files "schema.graphql" ["schema.graphql"] :=
  ⟨rfl, by decide, rfl, rfl⟩

theorem run_delivers_scalar : Options.parse plainArguments = .ok plainOptions ∧
    (run plainArguments scalarSurroundings).1.ending = .exit 0 ∧
    (∃ request, (run plainArguments scalarSurroundings).2.wire.sent = [request]) ∧
    (run plainArguments scalarSurroundings).2.files.octets? ["schema.graphql"] =
      some "scalar Text\n".toUTF8 := by
  obtain ⟨hsent, hzero, hdelivered, -⟩ := run_delivers parse_plainArguments scalarSurroundings
  have hrendered : Rendered plainOptions scalarSurroundings scalarSchema "scalar Text\n" :=
    ⟨List.not_mem_nil, ⟨scalarResult, scalarResult_delivered, build_scalarResult⟩,
      print_scalarSchema⟩
  have hwhole : Sdl.tear? scalarSchema = none := by decide +kernel
  have husable := scalarSurroundings_usable
  exact ⟨parse_plainArguments, hzero.mpr ⟨_, _, _, _, hrendered, hwhole, husable⟩,
    hsent.mpr List.not_mem_nil, (hdelivered _ _ _ _ hrendered hwhole husable).1⟩

/-- A document with a half of a surrogate pair for the description of a type. -/
def tornOctets : List UInt8 :=
  ("\x7b\"data\": \x7b\"__schema\": \x7b\"types\": [\x7b\"kind\": \"SCALAR\", " ++
    "\"name\": \"Text\", \"description\": \"\\ud800\"\x7d]\x7d\x7d\x7d").toList.map
      fun c => c.toNat.toUInt8

def firstHalf : Value := .torn { front := "", half := ⟨0⟩, behind := "" }

def tornResult : Entries :=
  [(.str "__schema", .dict [(.str "types", .list [
    .dict [(.str "kind", .str "SCALAR"), (.str "name", .str "Text"),
      (.str "description", firstHalf)]])])]

/-- The server has such a schema, and the file another one. -/
def tornSurroundings : Surroundings :=
  { scalarSurroundings with wire := { replies := [.response 200 .utf8 tornOctets] } }

theorem tornResult_delivered : tornSurroundings.wire.next.Delivers (.dict tornResult) := by
  have hdata : Client.Delivers 200 (Text.Charset.utf8.decode tornOctets) (.dict tornResult) := by
    refine Client.delivers_of_ascii ⟨by decide, by decide⟩ (by decide +kernel) ?_
    rw [Json.read, String.toList_append, String.toList_ofList, String.toList_ofList]
    rfl
  exact hdata

def tornSchema : Schema :=
  { types := [{ name := .str "Text", description := firstHalf, body := .scalar }] }

theorem tornSchema_rendered : ∃ text, Rendered plainOptions tornSurroundings tornSchema text :=
  ⟨_, List.not_mem_nil, ⟨tornResult, tornResult_delivered, rfl⟩, rfl⟩

/-- A schema is built and has a text, and the path can be written, but the tool does not exit with
zero, and what the file had before is gone. -/
theorem torn_text_empties_file : Options.parse plainArguments = .ok plainOptions ∧
    (∃ schema text, Rendered plainOptions tornSurroundings schema text) ∧
    Usable plainOptions tornSurroundings.files "schema.graphql" ["schema.graphql"] ∧
    (run plainArguments tornSurroundings).1.ending ≠ .exit 0 ∧
    tornSurroundings.files.read? ["schema.graphql"] = some "scalar Number\n" ∧
    (run plainArguments tornSurroundings).2.files.read? ["schema.graphql"] = some "" := by
  obtain ⟨text, hrendered⟩ := tornSchema_rendered
  have hcourse := plainOptions.work_course tornSurroundings
  have htorn : Sdl.tear? tornSchema = some ⟨3, 3, 0xD800⟩ := by decide +kernel
  have husable : Usable plainOptions tornSurroundings.files "schema.graphql" ["schema.graphql"] :=
    scalarSurroundings_usable
  obtain ⟨hfailed, hfiles⟩ := emptied_of_rendered hcourse hrendered htorn husable
  refine ⟨parse_plainArguments, ⟨_, _, hrendered⟩, husable, ?_, rfl, ?_⟩
  · rwa [outcome_of_parse parse_plainArguments, Ne, ending_eq_zero_iff]
  · rw [after_of_parse parse_plainArguments, hfiles, FileTree.read?_put, if_pos rfl]

end CommandLine
end SchemaScribe
