import SchemaScribe.Text.Blank

/-! # Headers on the command line

A header is written as a name and a value with a colon between them. The first colon ends the name;
the white space around both parts is not theirs.
-/
namespace SchemaScribe.CommandLine

def cutAt (separator : Char) : List Char → Option (List Char × List Char)
  | [] => none
  | c :: rest =>
    if c = separator then some ([], rest)
    else (cutAt separator rest).map fun (before, after) => (c :: before, after)

theorem eq_of_cutAt {separator : Char} {s before after : List Char}
    (h : cutAt separator s = some (before, after)) :
    s = before ++ separator :: after ∧ separator ∉ before := by
  induction s generalizing before with
  | nil => simp [cutAt] at h
  | cons c rest ih =>
    simp only [cutAt] at h
    split at h
    · next hc => simp_all
    · next hc =>
      obtain ⟨⟨b, a⟩, hb, he⟩ := Option.map_eq_some_iff.1 h
      simp only [Prod.mk.injEq] at he
      obtain ⟨rfl, rfl⟩ := he
      obtain ⟨hs, hn⟩ := ih hb
      exact ⟨by simp [hs], by simp [hn, Ne.symm hc]⟩

/-- The name and the value of a header. A header without a colon or without a name is refused. -/
def parseHeader (raw : String) : Option (String × String) :=
  match cutAt ':' raw.toList with
  | none => none
  | some (name, value) =>
    let name := Text.trimEnds Text.isBlank name
    if name.isEmpty then none
    else some (String.ofList name, String.ofList (Text.trimEnds Text.isBlank value))

def headerRefusal (raw : String) : String :=
  "Expected a header of the form \"Name: value\", got: " ++ raw

end SchemaScribe.CommandLine
