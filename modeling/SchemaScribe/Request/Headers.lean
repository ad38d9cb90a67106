import SchemaScribe.Text.LetterCase
import SchemaScribe.Value.Basic

/-! # Headers

Headers in order, one for each name. Letter case does not tell names apart: a header that is set
again keeps its place, and takes the new spelling with the new value.
-/
namespace SchemaScribe.Headers

/-- The name without regard to letter case. Only texts and octets have letters. -/
def fold? : Value → Option Value
  | .str s => some (.str (Text.lower s))
  | .torn text => some (.torn text.lower)
  | .bytes octets =>
    some (.bytes (octets.map fun octet =>
      if 0x41 ≤ octet ∧ octet ≤ 0x5A then octet + 0x20 else octet))
  | _ => none

def sameName (a b : Value) : Bool :=
  match fold? a, fold? b with
  | some x, some y => x.same y
  | _, _ => false

def put (name value : Value) : Entries → Entries
  | [] => [(name, value)]
  | (n, v) :: rest =>
    if sameName n name then (name, value) :: rest else (n, v) :: put name value rest

@[simp] theorem put_nil (name value : Value) : put name value [] = [(name, value)] := rfl

def putAll (headers : Entries) (later : Entries) : Entries :=
  later.foldl (fun done header => put header.1 header.2 done) headers

@[simp] theorem putAll_nil (headers : Entries) : putAll headers [] = headers := rfl

@[simp] theorem putAll_cons (headers later : Entries) (header : Value × Value) :
    putAll headers (header :: later) = putAll (put header.1 header.2 headers) later := rfl

/-- The first name that no header can have. -/
def misnamed? (headers : Entries) : Option Value :=
  (headers.find? fun header => (fold? header.1).isNone).map Prod.fst

def standard : Entries :=
  [(.str "Content-Type", .str "application/json; charset=utf-8"),
   (.str "Accept", .str "application/json; charset=utf-8")]

/-- The headers of a request: the standard ones, those of the client, and those of the draft, of
which a later one wins. -/
def merged (client draft : Entries) : Entries := putAll (putAll standard client) draft

end SchemaScribe.Headers
