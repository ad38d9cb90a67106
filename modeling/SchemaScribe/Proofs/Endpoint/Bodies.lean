import SchemaScribe.Proofs.Endpoint.Reception
import SchemaScribe.Proofs.Json.Blocked
import SchemaScribe.Proofs.Json.Readback

/-! # Bodies that are sent

A draft with plain values for its variables is sent, and whoever reads the body of the request has
what was set: the document, the variables in order, and the operation if one was selected.
-/
namespace SchemaScribe

namespace Draft

/-- The variables have plain values under names that are texts, and so is the name of the operation
if there is one. -/
structure Plain (limit : Option Nat) (draft : Draft) : Prop where
  bindings : Json.Plain limit (.dict draft.bindings)
  operation : draft.operation = .null ∨ ∃ name, draft.operation = .str name

/-- What was set, with lists in place of tuples. There is a name for the operation only if there is
one to name. -/
def content (draft : Draft) : Entries :=
  [(.str "query", .str draft.query),
   (.str "variables", .dict (Value.untupledEntries draft.bindings))] ++
    if draft.operation.isNull then [] else [(.str "operationName", draft.operation)]

section Plain
variable {draft : Draft} {limit : Option Nat}

theorem Plain.bodyWith (h : draft.Plain limit) :
    Json.Plain limit (.dict (draft.bodyWith (.dict draft.bindings))) := by
  have hquery : Json.Plain limit (.str draft.query) := .str
  obtain ⟨hbindings, hoperation | ⟨name, hoperation⟩⟩ := h
  · have hbody : draft.bodyWith (.dict draft.bindings) =
        [(.str "query", .str draft.query), (.str "variables", .dict draft.bindings)] := by
      rw [Draft.bodyWith, hoperation]
      rfl
    rw [hbody]
    refine .dict (by simp [Value.isText]) (by simp) ?_
    simp only [List.forall_mem_cons]
    exact ⟨hquery, hbindings, by simp⟩
  · have hname : Json.Plain limit (.str name) := .str
    have hbody : draft.bodyWith (.dict draft.bindings) =
        [(.str "query", .str draft.query), (.str "variables", .dict draft.bindings),
         (.str "operationName", .str name)] := by
      rw [Draft.bodyWith, hoperation]
      rfl
    rw [hbody]
    refine .dict (by simp [Value.isText]) (by simp) ?_
    simp only [List.forall_mem_cons]
    exact ⟨hquery, hbindings, hname, by simp⟩

theorem Plain.untupled_bodyWith (h : draft.Plain limit) :
    (Value.dict (draft.bodyWith (.dict draft.bindings))).untupled = .dict draft.content := by
  rcases h.operation with hoperation | ⟨name, hoperation⟩
  · rw [Draft.bodyWith, content, hoperation]
    rfl
  · rw [Draft.bodyWith, content, hoperation]
    rfl

end Plain
end Draft

namespace Json
variable {limit : Option Nat}

theorem uncopyableItem?_eq_none {items : List Value}
    (h : ∀ item ∈ items, item.uncopyable? = none) : Value.uncopyableItem? items = none := by
  induction items with
  | nil => rfl
  | cons item items ih =>
    obtain ⟨hfirst, hrest⟩ := List.forall_mem_cons.mp h
    rw [Value.uncopyableItem?, hfirst, ih hrest]
    rfl

theorem uncopyablePair?_eq_none {entries : Entries}
    (h : ∀ entry ∈ entries, entry.1.uncopyable? = none ∧ entry.2.uncopyable? = none) :
    Value.uncopyablePair? entries = none := by
  induction entries with
  | nil => rfl
  | cons entry entries ih =>
    obtain ⟨⟨hkey, hvalue⟩, hrest⟩ := List.forall_mem_cons.mp h
    rw [Value.uncopyablePair?, hkey, hvalue, ih hrest]
    rfl

/-- Plain values can be copied. -/
theorem Plain.copyable {v : Value} (h : Plain limit v) : v.uncopyable? = none := by
  induction h with
  | null | bool | int | str => rfl
  | list _ ih | tuple _ ih =>
    rw [Value.uncopyable?]
    exact uncopyableItem?_eq_none ih
  | dict hname _ _ ih =>
    rw [Value.uncopyable?]
    refine uncopyablePair?_eq_none fun entry he => ⟨?_, ih entry he⟩
    have hkey := hname entry he
    revert hkey
    cases entry.1 with
    | str name => exact fun _ => rfl
    | _ => exact nofun

end Json

namespace Client

/-- A draft with plain values for its variables is sent as ASCII text, and whoever reads it has what
was set, each integer in full. No integer has more digits than are written for one. -/
theorem run_decodes {client : Client} {draft : Draft}
    (hplain : draft.Plain (some Numeral.digitLimit))
    (hnames : Headers.misnamed? (client.headers ++ draft.headers) = none)
    (type : Option ResultType) (wire : Wire) :
    ∃ request, (client.run draft type wire).2.sent = wire.sent ++ [request] ∧
      Json.Ascii request.data.toList ∧ Json.read request.data = .ok (.dict draft.content) ∧
      Json.readAll none request.data.toList = .ok (.dict draft.content) := by
  have hnone : ∀ digits, Json.exceeds (some Numeral.digitLimit) digits = false →
      Json.exceeds none digits = false := fun _ _ => rfl
  obtain ⟨data, hdata, hascii, hread⟩ := Json.exists_write_readAll hplain.bodyWith fun _ h => h
  obtain ⟨same, hsame, -, hfree⟩ := Json.exists_write_readAll hplain.bodyWith hnone
  obtain rfl : data = same := Except.ok.inj (hdata.symm.trans hsame)
  have hpayload : payload draft = .ok data := by
    rw [payload_of_copyable hplain.bindings.copyable]
    exact congrArg (Except.mapError _) hdata
  have hrequest := request_eq_ok hpayload hnames
  rw [hplain.untupled_bodyWith] at hread hfree
  refine ⟨_, sent_run hrequest type wire, hascii, ?_, hfree⟩
  rw [Json.read, hread]

def farSouth : Int := -1000000000000000000000000000000

/-- A draft with a tuple in a list, empty containers, an integer of many digits and a character
beyond the first plane. -/
def starDraft : Draft where
  query := "query Star($near: [Near]) \x7b star(near: $near) \x7d"
  operation := .str "Star"
  bindings :=
    [(.str "near", .list [.tuple [.int farSouth, .null], .tuple []]),
     (.str "🌟\n", .dict [(.str "\"", .dict []), (.str "", .bool true)])]

theorem starDraft_plain : starDraft.Plain (some Numeral.digitLimit) where
  bindings := by
    have hint : Json.Plain (some Numeral.digitLimit) (.int farSouth) := .int (by decide)
    have hempty : Json.Plain (some Numeral.digitLimit) (.dict []) :=
      .dict (by simp) (by simp) (by simp)
    have hnear : Json.Plain (some Numeral.digitLimit)
        (.list [.tuple [.int farSouth, .null], .tuple []]) := by
      refine .list ?_
      simp only [List.forall_mem_cons]
      refine ⟨.tuple ?_, .tuple (by simp), by simp⟩
      simp only [List.forall_mem_cons]
      exact ⟨hint, .null, by simp⟩
    have hstar : Json.Plain (some Numeral.digitLimit)
        (.dict [(.str "\"", .dict []), (.str "", .bool true)]) := by
      refine .dict (by simp [Value.isText]) (by simp) ?_
      simp only [List.forall_mem_cons]
      exact ⟨hempty, .bool, by simp⟩
    refine .dict (by simp [starDraft, Value.isText]) (by simp [starDraft]) ?_
    simp only [starDraft, List.forall_mem_cons]
    exact ⟨hnear, hstar, by simp⟩
  operation := .inr ⟨"Star", rfl⟩

theorem run_decodes_star :
    starDraft.Plain (some Numeral.digitLimit) ∧
      Headers.misnamed? (heroClient.headers ++ starDraft.headers) = none ∧
      ∃ request, (heroClient.run starDraft none { replies := [] }).2.sent = [request] ∧
        Json.read request.data = .ok (.dict
          [(.str "query", .str starDraft.query),
           (.str "variables", .dict
            [(.str "near", .list [.list [.int farSouth, .null], .list []]),
             (.str "🌟\n", .dict [(.str "\"", .dict []), (.str "", .bool true)])]),
           (.str "operationName", .str "Star")]) := by
  have hnames : Headers.misnamed? (heroClient.headers ++ starDraft.headers) = none := rfl
  obtain ⟨request, hsent, -, hread, -⟩ := run_decodes starDraft_plain hnames none { replies := [] }
  exact ⟨starDraft_plain, hnames, request, hsent, hread⟩

/-- The first whole number with more digits than are written for one. -/
def firstLong : Int := 10 ^ Numeral.digitLimit

def firstLongDraft : Draft where
  query := "query Star($n: Int) \x7b star(n: $n) \x7d"
  bindings := [(.str "n", .int firstLong)]

theorem firstLongDraft_plain : firstLongDraft.Plain none where
  bindings := by
    have hint : Json.Plain none (.int firstLong) := .int rfl
    refine .dict (by simp [firstLongDraft, Value.isText]) (by simp [firstLongDraft]) ?_
    simp only [firstLongDraft, List.forall_mem_cons]
    exact ⟨hint, by simp⟩
  operation := .inl rfl

theorem firstLongDraft_withheld : (heroClient.run firstLongDraft none { replies := [] }).2.sent = [] := by
  have hfails : Json.Fails (Json.write .request
      (.dict (firstLongDraft.bodyWith (.dict firstLongDraft.bindings)))) :=
    (Json.write_fails_iff rfl _).mpr
      (.inDict (.tail _ (.head _)) (.inDict (.head _) (.longInteger (Json.exceeds_pow (by decide)))))
  obtain ⟨reason, hreason⟩ := hfails
  have hpayload : payload firstLongDraft = .error (.unwritable reason) := by
    rw [payload_of_copyable firstLongDraft_plain.bindings.copyable, hreason]
    rfl
  rw [run, execute_of_fault (request_of_payload hpayload)]

/-- A draft with a number for the name of a header. -/
def misnamedDraft : Draft := { hero with headers := [(.int 5, .str "x")] }

theorem misnamedDraft_plain : misnamedDraft.Plain (some Numeral.digitLimit) :=
  ⟨.dict (by simp [misnamedDraft, hero]) (by simp [misnamedDraft, hero])
    (by simp [misnamedDraft, hero]), .inl rfl⟩

theorem misnamedDraft_withheld : (heroClient.run misnamedDraft none { replies := [] }).2.sent = [] := by
  obtain ⟨data, hpayload⟩ : ∃ data, payload misnamedDraft = .ok data := ⟨_, rfl⟩
  have hname : Headers.misnamed? (heroClient.headers ++ misnamedDraft.headers) = some (.int 5) := rfl
  rw [run, execute_of_fault (request_of_misnamed hpayload hname)]

/-- An integer of any size is a plain value, but one with too many digits is not sent, and with a
number for the name of a header nothing is. -/
theorem plain_drafts_withheld :
    (firstLongDraft.Plain none ∧ firstLongDraft.headers = [] ∧
      (heroClient.run firstLongDraft none { replies := [] }).2.sent = []) ∧
    misnamedDraft.Plain (some Numeral.digitLimit) ∧
      (heroClient.run misnamedDraft none { replies := [] }).2.sent = [] :=
  ⟨⟨firstLongDraft_plain, rfl, firstLongDraft_withheld⟩, misnamedDraft_plain, misnamedDraft_withheld⟩

end Client
end SchemaScribe
