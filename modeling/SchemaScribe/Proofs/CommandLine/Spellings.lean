import SchemaScribe.Proofs.CommandLine.Course
import SchemaScribe.Proofs.Endpoint.Precedence
import SchemaScribe.Proofs.Scribe.Sessions

/-! # Headers set under several spellings

A header that is set again under the same spelling keeps its place among the others, and of several
spellings of a name a request carries the one whose place is last. So it is not the last call for a
name that prevails, but the last one under the spelling that was the last to come up. The two are
the same exactly if the last call has that spelling.
-/
namespace SchemaScribe
open Success

namespace Headers

/-- A call that sets a header. -/
def ofCall (call : String × String) : Value × Value := (.str call.1, .str call.2)

/-- The spellings of a name, in the order in which they first came up. -/
def spellings (calls : List (String × String)) (name : String) : List String :=
  (calls.map Prod.fst).eraseDups.filter fun spelling => Text.lower spelling = Text.lower name

/-- The last call under exactly this spelling. -/
def lastSpelled? (calls : List (String × String)) (spelling : String) : Option (String × String) :=
  (calls.filter fun call => call.1 = spelling).getLast?

/-- The last call for a name, in any spelling. -/
def lastCall? (calls : List (String × String)) (name : String) : Option (String × String) :=
  (calls.filter fun call => Text.lower call.1 = Text.lower name).getLast?

/-- The last call under the spelling of a name that was the last to come up. -/
def prevailing? (calls : List (String × String)) (name : String) : Option (String × String) :=
  (spellings calls name).getLast?.bind (lastSpelled? calls)

/-- Each name that was set stands there once, whatever its letter case, as the call that prevails
set it. -/
def Carries (calls : List (String × String)) (headers : Entries) : Prop :=
  ∀ call ∈ calls, ∃ winner, prevailing? calls call.1 = some winner ∧
    headers.filter (fun header => caseless header.1 = Text.lower call.1) = [ofCall winner]

variable {calls : List (String × String)} {call last : String × String} {name spelling : String}

/-! ## The call that prevails -/

theorem mem_spellings_iff : spelling ∈ spellings calls name ↔
    spelling ∈ calls.map Prod.fst ∧ Text.lower spelling = Text.lower name := by
  rw [spellings, List.mem_filter, List.mem_eraseDups, decide_eq_true_iff]

theorem fst_of_lastSpelled (h : lastSpelled? calls spelling = some call) : call.1 = spelling := by
  simpa using (List.mem_filter.mp (List.mem_of_getLast? h)).2

theorem exists_lastSpelled (h : spelling ∈ calls.map Prod.fst) :
    ∃ call, lastSpelled? calls spelling = some call := by
  obtain ⟨call, hcall, rfl⟩ := List.mem_map.mp h
  rw [← Option.isSome_iff_exists, lastSpelled?, List.getLast?_isSome]
  exact List.ne_nil_of_mem (List.mem_filter.mpr ⟨hcall, by simp⟩)

/-- The call that prevails has the last spelling. -/
theorem map_fst_prevailing? (calls : List (String × String)) (name : String) :
    (prevailing? calls name).map Prod.fst = (spellings calls name).getLast? := by
  cases hlast : (spellings calls name).getLast? with
  | none => simp [prevailing?, hlast]
  | some spelling =>
    obtain ⟨hused, -⟩ := mem_spellings_iff.mp (List.mem_of_getLast? hlast)
    obtain ⟨call, hcall⟩ := exists_lastSpelled hused
    rw [prevailing?, hlast, Option.bind_some, hcall, Option.map_some, fst_of_lastSpelled hcall]

theorem exists_prevailing (h : call ∈ calls) : ∃ winner, prevailing? calls call.1 = some winner := by
  have hused : call.1 ∈ spellings calls call.1 :=
    mem_spellings_iff.mpr ⟨List.mem_map_of_mem h, rfl⟩
  have hsome : ((prevailing? calls call.1).map Prod.fst).isSome = true := by
    rw [map_fst_prevailing?, List.getLast?_isSome]
    exact List.ne_nil_of_mem hused
  exact Option.isSome_iff_exists.mp (by simpa using hsome)

/-- The last call for a name is the last one under its own spelling. -/
theorem lastSpelled_of_lastCall (h : lastCall? calls name = some last) :
    lastSpelled? calls last.1 = some last := by
  have hname : Text.lower last.1 = Text.lower name := by
    simpa using (List.mem_filter.mp (List.mem_of_getLast? h)).2
  obtain ⟨front, hfront⟩ := List.getLast?_eq_some_iff.mp h
  have hspelled : calls.filter (fun call => call.1 = last.1) =
      (calls.filter fun call => Text.lower call.1 = Text.lower name).filter
        fun call => call.1 = last.1 := by
    rw [List.filter_filter]
    refine List.filter_congr fun call _ => ?_
    by_cases hcall : call.1 = last.1
    · simp [hcall, hname]
    · simp [hcall]
  rw [lastSpelled?, hspelled, hfront, List.filter_append, List.filter_cons_of_pos (by simp),
    List.filter_nil, List.getLast?_concat]

/-- The last call for a name prevails exactly if it has the spelling that was the last to come
up. -/
theorem prevailing_eq_lastCall_iff (calls : List (String × String)) (name : String) :
    prevailing? calls name = lastCall? calls name ↔
      (spellings calls name).getLast? = (lastCall? calls name).map Prod.fst := by
  constructor
  · intro h
    rw [← h, map_fst_prevailing?]
  · intro h
    cases hlast : lastCall? calls name with
    | none =>
      rw [hlast, Option.map_none] at h
      rw [prevailing?, h, Option.bind_none]
    | some last =>
      rw [hlast, Option.map_some] at h
      rw [prevailing?, h, Option.bind_some, lastSpelled_of_lastCall hlast]

/-! ## Headers that are kept and sent -/

theorem named_calls (calls : List (String × String)) : Named (calls.map ofCall) := by
  intro header hheader
  obtain ⟨call, -, rfl⟩ := List.mem_map.mp hheader
  rfl

theorem last?_calls (calls : List (String × String)) (spelling : String) :
    last? Value.display (calls.map ofCall) spelling = (lastSpelled? calls spelling).map ofCall := by
  rw [last?, List.filter_map, List.getLast?_map]
  rfl

/-- Of the headers that are kept, the last one of a name is the call that prevails. -/
theorem last?_kept (calls : List (String × String)) (name : String) :
    last? caseless (Entries.ofList (calls.map ofCall)) (Text.lower name) =
      (prevailing? calls name).map ofCall := by
  have hgathers := gathers_ofList (named_calls calls)
  have hkeys : (Entries.ofList (calls.map ofCall)).map (fun header => header.1.display) =
      (calls.map Prod.fst).eraseDups := by
    rw [hgathers.keys, List.map_map]
    rfl
  have hspellings : spellings calls name =
      ((Entries.ofList (calls.map ofCall)).filter fun header =>
        caseless header.1 = Text.lower name).map fun header => header.1.display := by
    rw [spellings, ← hkeys, List.filter_map]
    rfl
  rw [prevailing?, hspellings, List.getLast?_map, last?]
  cases hlast : ((Entries.ofList (calls.map ofCall)).filter fun header =>
      caseless header.1 = Text.lower name).getLast? with
  | none => rfl
  | some header =>
    have hkept := hgathers.last header (List.mem_filter.mp (List.mem_of_getLast? hlast)).1
    rw [last?_calls] at hkept
    exact hkept.symm

theorem carries_merged (calls : List (String × String)) {client : Entries}
    (hclient : Named client) :
    Carries calls (merged client (Entries.ofList (calls.map ofCall))) := by
  intro call hcall
  obtain ⟨winner, hwinner⟩ := exists_prevailing hcall
  have hgathers := gathers_merged hclient (named_calls calls).ofList
  refine ⟨winner, hwinner, ?_⟩
  rw [hgathers.filter_eq, last?_append, last?_kept, hwinner]
  rfl

end Headers

/-! ## Calls on a draft, a scribe and the command line -/

/-- The draft after headers are set one after the other. -/
def Draft.setHeaders (draft : Draft) (calls : List (String × String)) : Option Draft :=
  calls.foldlM (fun draft call => draft.setHeader (.str call.1) (.str call.2)) draft

/-- The scribe after headers are added one after the other. -/
def Scribe.addHeaders (scribe : Scribe) (calls : List (String × String)) :
    Except ScribeFault Scribe :=
  calls.foldlM (fun scribe call => scribe.add (.str call.1) (.str call.2)) scribe

theorem Draft.setHeaders_eq (calls : List (String × String)) (draft : Draft) :
    draft.setHeaders calls = some { draft with
      headers := (calls.map Headers.ofCall).foldl (fun done entry => Entries.put entry.1 entry.2 done)
        draft.headers } := by
  induction calls generalizing draft with
  | nil => rfl
  | cons call rest ih =>
    have hset : draft.setHeader (.str call.1) (.str call.2) =
        some { draft with headers := Entries.put (.str call.1) (.str call.2) draft.headers } := rfl
    rw [setHeaders, List.foldlM_cons, hset]
    exact ih _

theorem Scribe.addHeaders_eq (calls : List (String × String)) (scribe : Scribe) :
    scribe.addHeaders calls = .ok { scribe with
      headers := (calls.map Headers.ofCall).foldl (fun done entry => Entries.put entry.1 entry.2 done)
        scribe.headers } := by
  induction calls generalizing scribe with
  | nil => rfl
  | cons call rest ih =>
    have hadd : scribe.add (.str call.1) (.str call.2) =
        .ok { scribe with headers := Entries.put (.str call.1) (.str call.2) scribe.headers } := rfl
    rw [addHeaders, List.foldlM_cons, hadd]
    exact ih _

namespace Scribe
variable {scribe : Scribe}

/-- A fetch from an address sends its request under the headers of the scribe. -/
theorem exists_fetched (hnames : Headers.Named scribe.headers) {url : Option String}
    {address : String} (hurl : url.or scribe.url = some address) (around : Surroundings) :
    ∃ request, (scribe.fetch url around).2.wire.sent = around.wire.sent ++ [request] ∧
      request.headers = Headers.merged [] scribe.headers := by
  obtain ⟨-, request, hsent, hheaders⟩ := ask_eq hnames address around.wire
  refine ⟨request, ?_, hheaders⟩
  rw [wire_fetch, hurl]
  exact hsent

end Scribe

namespace CommandLine.Options
variable {options : Options}

theorem mapM_id_map_some {α : Type} (items : List α) :
    (items.map some).mapM id = some items := by
  induction items with
  | nil => rfl
  | cons item rest ih => simp [ih]

theorem scribe_of_calls {calls : List (String × String)}
    (h : options.headers = calls.map some) :
    options.scribe = .ok
      { timeout := options.timeoutValue, ownsSessions := true
        headers := Entries.ofList (calls.map Headers.ofCall) } := by
  rw [scribe, h, mapM_id_map_some]
  rfl

/-- All that is sent for the work is sent by its fetch. -/
theorem wire_work {scribe : Scribe} (h : options.scribe = .ok scribe) (before : Surroundings) :
    (options.work before).2.wire = (scribe.fetch (some options.url) before).2.wire := by
  have hprepare : (options.prepare before).2.wire =
      (scribe.fetch (some options.url) before).2.wire := by
    unfold prepare
    rw [h]
    dsimp only
    split
    next fault around hfetch => rw [hfetch]
    next found fetched around hfetch =>
      have hbuild := fetched.wire_build none around
      rw [hfetch]
      split
      next hbuilt => rw [hbuilt] at hbuild; exact hbuild
      next hbuilt => rw [hbuilt] at hbuild; exact hbuild
  rw [← hprepare]
  unfold work
  split
  next hfault => rw [hfault]
  next built around hbuilt =>
    rw [hbuilt]
    split
    next path _ => exact built.wire_write path none around
    next => split <;> rfl

end CommandLine.Options

namespace Headers

/-- Headers that are set on a draft, added to a scribe or named on the command line, with texts for
their names and values: the request that is sent carries each name that was set once, whatever its
letter case, as the last call under the spelling that was the last to come up. This is the last call
for the name exactly if that one has this spelling. -/
theorem calls_carried (calls : List (String × String)) :
    (∀ (client : Client) (draft : Draft) (data : String) (wire : Wire), Named client.headers →
      draft.headers = [] → Client.payload draft = .ok data →
      ∃ changed request, draft.setHeaders calls = some changed ∧
        (client.execute changed wire).2.sent = wire.sent ++ [request] ∧
        Carries calls request.headers) ∧
    (∀ (scribe : Scribe) (url : Option String) (address : String) (around : Surroundings),
      scribe.headers = [] → url.or scribe.url = some address →
      ∃ changed request, scribe.addHeaders calls = .ok changed ∧
        (changed.fetch url around).2.wire.sent = around.wire.sent ++ [request] ∧
        Carries calls request.headers) ∧
    (∀ (arguments : List String) (options : CommandLine.Options) (before : Surroundings),
      CommandLine.Options.parse arguments = .ok options → options.headers = calls.map some →
      ∃ request,
        (CommandLine.run arguments before).2.wire.sent = before.wire.sent ++ [request] ∧
        Carries calls request.headers) ∧
    ∀ name, prevailing? calls name = lastCall? calls name ↔
      (spellings calls name).getLast? = (lastCall? calls name).map Prod.fst := by
  have hkept : Named (Entries.ofList (calls.map ofCall)) := (named_calls calls).ofList
  refine ⟨fun client draft data wire hclient hnew hdata => ?_,
    fun scribe url address around hnew hurl => ?_,
    fun arguments options before hparse hoptions => ?_, prevailing_eq_lastCall_iff calls⟩
  · let changed : Draft := { draft with headers := Entries.ofList (calls.map ofCall) }
    have hchanged : draft.setHeaders calls = some changed := by
      rw [Draft.setHeaders_eq, hnew]
      rfl
    have hrequest : client.request changed = .ok _ :=
      Client.request_eq_ok hdata (hclient.append hkept).misnamed?
    obtain ⟨hsent, -⟩ := Client.sent_of_request hrequest none wire
    exact ⟨changed, _, hchanged, hsent, carries_merged calls hclient⟩
  · let changed : Scribe := { scribe with headers := Entries.ofList (calls.map ofCall) }
    have hchanged : scribe.addHeaders calls = .ok changed := by
      rw [Scribe.addHeaders_eq, hnew]
      rfl
    have haddress : url.or changed.url = some address := hurl
    obtain ⟨request, hsent, hheaders⟩ := changed.exists_fetched hkept haddress around
    exact ⟨changed, request, hchanged, hsent, hheaders ▸ carries_merged calls .nil⟩
  · let scribe : Scribe :=
      { timeout := options.timeoutValue, ownsSessions := true
        headers := Entries.ofList (calls.map ofCall) }
    have hscribe : options.scribe = .ok scribe := CommandLine.Options.scribe_of_calls hoptions
    have haddress : (some options.url).or scribe.url = some options.url := rfl
    obtain ⟨request, hsent, hheaders⟩ := scribe.exists_fetched hkept haddress before
    refine ⟨request, ?_, hheaders ▸ carries_merged calls .nil⟩
    rw [CommandLine.after_of_parse hparse, CommandLine.Options.wire_work hscribe]
    exact hsent

/-- A header that is set again under its first spelling, after another one. -/
def respelledCalls : List (String × String) :=
  [("X-Trace", "1"), ("x-trace", "2"), ("X-Trace", "3")]

theorem calls_carried_respelled : Named Client.heroClient.headers ∧ Client.hero.headers = [] ∧
    (∃ data, Client.payload Client.hero = .ok data) ∧
    ∃ changed request, Client.hero.setHeaders respelledCalls = some changed ∧
      (Client.heroClient.execute changed { replies := [] }).2.sent = [request] ∧
      Carries respelledCalls request.headers := by
  have hdata : ∃ data, Client.payload Client.hero = .ok data := ⟨_, rfl⟩
  obtain ⟨data, hwritten⟩ := hdata
  obtain ⟨hdraft, -, -, -⟩ := calls_carried respelledCalls
  obtain ⟨changed, request, hchanged, hsent, hcarries⟩ :=
    hdraft Client.heroClient Client.hero data { replies := [] } .nil rfl hwritten
  exact ⟨.nil, rfl, ⟨data, hwritten⟩, changed, request, hchanged, hsent, hcarries⟩

/-- The last call for the name is lost, and the one under the other spelling is sent. -/
theorem respelled_call_lost : lastCall? respelledCalls "X-Trace" = some ("X-Trace", "3") ∧
    ∃ changed request, Client.hero.setHeaders respelledCalls = some changed ∧
      (Client.heroClient.execute changed { replies := [] }).2.sent = [request] ∧
      request.headers.filter (fun header => caseless header.1 = Text.lower "X-Trace") =
        [(.str "x-trace", .str "2")] := by
  have hprevails : prevailing? respelledCalls "X-Trace" = some ("x-trace", "2") := rfl
  obtain ⟨winner, hwinner, hsent⟩ :=
    carries_merged respelledCalls .nil ("X-Trace", "1") (List.mem_cons_self ..)
  obtain rfl : ("x-trace", "2") = winner := Option.some.inj (hprevails.symm.trans hwinner)
  exact ⟨rfl, _, _, rfl, rfl, hsent⟩

end Headers
end SchemaScribe
