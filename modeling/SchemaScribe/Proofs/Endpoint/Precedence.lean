import Mathlib.Data.List.Induction
import Mathlib.Data.List.Nodup
import SchemaScribe.Proofs.Endpoint.Reception

/-! # The precedence of headers

Headers that are put one after the other leave one for each key: the last of that key, where the
first one stood. The headers of a request are gathered in this way from the standard ones, those of
the client and those of the draft, under their names without regard to letter case.
-/
namespace SchemaScribe
namespace Headers

/-- A name without regard to letter case. -/
def caseless (name : Value) : String := Text.lower name.display

/-- The last header under a key. -/
def last? (key : Value → String) (headers : Entries) (k : String) : Option (Value × Value) :=
  (headers.filter fun header => key header.1 = k).getLast?

/-- All that can become of headers when one is put among them: it takes the place of the one under
its key, or it comes behind them all. -/
inductive Puts (key : Value → String) (header : Value × Value) : Entries → Entries → Prop
  | replaced (before after : Entries) {old : Value × Value} : key old.1 = key header.1 →
      Puts key header (before ++ old :: after) (before ++ header :: after)
  | added {headers : Entries} : (∀ other ∈ headers, key other.1 ≠ key header.1) →
      Puts key header headers (headers ++ [header])

/-- One header for each key of the sources: the last one under that key. The keys come in the order
in which the sources first have them. -/
structure Gathers (key : Value → String) (sources headers : Entries) : Prop where
  keys : headers.map (fun header => key header.1) =
    (sources.map fun header => key header.1).eraseDups
  last : ∀ header ∈ headers, last? key sources (key header.1) = some header

variable {key : Value → String} {sources headers next : Entries} {header other : Value × Value}

/-! ## Keys in the order of their first use -/

theorem eraseDups_concat (keys : List String) (k : String) :
    (keys ++ [k]).eraseDups = if k ∈ keys then keys.eraseDups else keys.eraseDups ++ [k] := by
  rw [List.eraseDups_append, List.cons_removeAll]
  by_cases hk : k ∈ keys
  · simp [hk, List.removeAll]
  · simp [hk, List.removeAll, List.eraseDups_cons]

theorem nodup_eraseDups (keys : List String) : keys.eraseDups.Nodup := by
  induction keys using List.reverseRecOn with
  | nil => exact List.nodup_nil
  | append_singleton keys k ih =>
    rw [eraseDups_concat]
    split
    · exact ih
    · next hk => exact List.concat_eq_append ▸ (List.nodup_concat ..).mpr ⟨by simpa using hk, ih⟩

/-! ## Headers under a key -/

theorem filter_key_eq_nil_iff {k : String} :
    headers.filter (fun header => key header.1 = k) = [] ↔
      k ∉ headers.map fun header => key header.1 := by
  simp [List.filter_eq_nil_iff]

theorem filter_key_of_nodup (hnodup : (headers.map fun header => key header.1).Nodup)
    (hheader : header ∈ headers) :
    headers.filter (fun other => key other.1 = key header.1) = [header] := by
  obtain ⟨before, after, rfl⟩ := List.append_of_mem hheader
  rw [List.map_append, List.map_cons, List.nodup_middle, List.nodup_cons, ← List.map_append,
    ← filter_key_eq_nil_iff, List.filter_append, List.append_eq_nil_iff] at hnodup
  rw [List.filter_append, List.filter_cons_of_pos (by simp), hnodup.1.1, hnodup.1.2,
    List.nil_append]

/-! ## One header is put -/

theorem Puts.cons {first : Value × Value} (h : Puts key header headers next)
    (hfirst : key first.1 ≠ key header.1) : Puts key header (first :: headers) (first :: next) := by
  cases h with
  | replaced before after hold => exact .replaced (first :: before) after hold
  | added hnew => exact .added (List.forall_mem_cons.mpr ⟨hfirst, hnew⟩)

theorem Puts.mem (h : Puts key header headers next) : header ∈ next := by
  cases h <;> simp

theorem Puts.mem_or (h : Puts key header headers next) (hother : other ∈ next) :
    other = header ∨ other ∈ headers := by
  cases h with
  | replaced before after =>
    simp only [List.mem_append, List.mem_cons] at hother ⊢
    tauto
  | added =>
    simp only [List.mem_append, List.mem_singleton] at hother
    exact hother.symm

theorem Puts.named (h : Puts key header headers next) (hheader : header.1.isText = true)
    (hheaders : Named headers) : Named next := by
  intro other hother
  rcases h.mem_or hother with rfl | hother
  · exact hheader
  · exact hheaders other hother

theorem Puts.keys (h : Puts key header headers next) :
    next.map (fun header => key header.1) =
      if key header.1 ∈ headers.map (fun header => key header.1)
        then headers.map fun header => key header.1
        else (headers.map fun header => key header.1) ++ [key header.1] := by
  cases h with
  | replaced before after hold => simp [hold]
  | added hnew => simpa using fun name value hmem heq => absurd heq (hnew (name, value) hmem)

theorem last?_concat_self (headers : Entries) (header : Value × Value) :
    last? key (headers ++ [header]) (key header.1) = some header := by
  simp [last?]

theorem last?_concat_of_ne {k : String} (h : key header.1 ≠ k) :
    last? key (headers ++ [header]) k = last? key headers k := by
  simp [last?, h]

theorem last?_append (headers later : Entries) (k : String) :
    last? key (headers ++ later) k = (last? key later k).or (last? key headers k) := by
  rw [last?, List.filter_append, List.getLast?_append, last?, last?]

/-! ## Headers that are gathered -/

namespace Gathers

theorem nil : Gathers key [] [] := ⟨rfl, by simp⟩

theorem nodup (h : Gathers key sources headers) :
    (headers.map fun header => key header.1).Nodup :=
  h.keys ▸ nodup_eraseDups _

theorem mem_keys_iff (h : Gathers key sources headers) {k : String} :
    k ∈ headers.map (fun header => key header.1) ↔ k ∈ sources.map fun header => key header.1 := by
  rw [h.keys, List.mem_eraseDups]

/-- What was gathered stays so when a header is put that is one more source. -/
theorem put (h : Gathers key sources headers) (hputs : Puts key header headers next) :
    Gathers key (sources ++ [header]) next := by
  have hkeys : next.map (fun header => key header.1) =
      ((sources ++ [header]).map fun header => key header.1).eraseDups := by
    rw [hputs.keys, List.map_append, List.map_singleton, eraseDups_concat, ← h.keys]
    simp only [h.mem_keys_iff]
  refine ⟨hkeys, fun other hother => ?_⟩
  by_cases hkey : key header.1 = key other.1
  -- Only the new header is under its key, for no key stands there twice.
  · have hnodup : (next.map fun header => key header.1).Nodup := hkeys ▸ nodup_eraseDups _
    obtain rfl : header = other :=
      List.inj_on_of_nodup_map hnodup hputs.mem hother hkey
    exact last?_concat_self sources header
  · have hold : other ∈ headers := (hputs.mem_or hother).resolve_left fun heq => hkey (heq ▸ rfl)
    rw [last?_concat_of_ne hkey]
    exact h.last other hold

theorem filter_eq (h : Gathers key sources headers) (k : String) :
    headers.filter (fun header => key header.1 = k) = (last? key sources k).toList := by
  by_cases hk : k ∈ headers.map fun header => key header.1
  · obtain ⟨header, hheader, rfl⟩ := List.mem_map.mp hk
    rw [filter_key_of_nodup h.nodup hheader, h.last header hheader]
    rfl
  · have hsources : k ∉ sources.map fun header => key header.1 := mt h.mem_keys_iff.mpr hk
    rw [filter_key_eq_nil_iff.mpr hk, last?, filter_key_eq_nil_iff.mpr hsources]
    rfl

end Gathers

/-- Headers that are put one after the other are gathered. -/
theorem gathers_foldl {put : Value → Value → Entries → Entries}
    (hput : ∀ (header : Value × Value) (headers : Entries), header.1.isText = true →
      Named headers → Puts key header headers (put header.1 header.2 headers))
    (hsources : Named sources) :
    Named (sources.foldl (fun done header => put header.1 header.2 done) []) ∧
      Gathers key sources (sources.foldl (fun done header => put header.1 header.2 done) []) := by
  induction sources using List.reverseRecOn with
  | nil => exact ⟨.nil, .nil⟩
  | append_singleton sources header ih =>
    obtain ⟨hbefore, hlast⟩ := List.forall_mem_append.mp hsources
    have hheader : header.1.isText = true := hlast header (List.mem_singleton_self header)
    obtain ⟨hnamed, hgathers⟩ := ih hbefore
    have hputs := hput header _ hheader hnamed
    rw [List.foldl_concat]
    exact ⟨hputs.named hheader hnamed, hgathers.put hputs⟩

/-! ## Names with and without letter case -/

theorem exists_str {name : Value} (h : name.isText = true) : ∃ s, name = .str s := by
  cases name with
  | str s => exact ⟨s, rfl⟩
  | _ => cases h

section Texts
variable {name later : Value} (hname : name.isText = true) (hlater : later.isText = true)
include hname hlater

theorem sameName_iff : sameName name later = true ↔ caseless name = caseless later := by
  obtain ⟨s, rfl⟩ := exists_str hname
  obtain ⟨t, rfl⟩ := exists_str hlater
  simp [sameName, fold?, caseless]

theorem same_iff : name.same later = true ↔ name = later := by
  obtain ⟨s, rfl⟩ := exists_str hname
  obtain ⟨t, rfl⟩ := exists_str hlater
  simp

theorem display_inj : name.display = later.display ↔ name = later := by
  obtain ⟨s, rfl⟩ := exists_str hname
  obtain ⟨t, rfl⟩ := exists_str hlater
  simp

end Texts

theorem puts_put (header : Value × Value) (headers : Entries) (hheader : header.1.isText = true)
    (hheaders : Named headers) :
    Puts caseless header headers (Headers.put header.1 header.2 headers) := by
  induction headers with
  | nil => exact .added (by simp)
  | cons first rest ih =>
    obtain ⟨hfirst, hrest⟩ := List.forall_mem_cons.mp hheaders
    rw [Headers.put]
    split
    · next hsame => exact .replaced [] rest ((sameName_iff hfirst hheader).mp hsame)
    · next hother => exact (ih hrest).cons (mt (sameName_iff hfirst hheader).mpr hother)

theorem puts_entry (header : Value × Value) (headers : Entries) (hheader : header.1.isText = true)
    (hheaders : Named headers) :
    Puts Value.display header headers (Entries.put header.1 header.2 headers) := by
  induction headers with
  | nil => exact .added (by simp)
  | cons first rest ih =>
    obtain ⟨hfirst, hrest⟩ := List.forall_mem_cons.mp hheaders
    rw [Entries.put]
    split
    · next hsame =>
      -- The key that is kept is the very name that is put.
      have hname : first.1 = header.1 := (same_iff hfirst hheader).mp hsame
      rw [hname]
      exact .replaced [] rest (congrArg Value.display hname)
    · next hother =>
      exact (ih hrest).cons (mt (fun heq =>
        (same_iff hfirst hheader).mpr ((display_inj hfirst hheader).mp heq)) hother)

theorem gathers_ofList (h : Named sources) :
    Gathers Value.display sources (Entries.ofList sources) :=
  (gathers_foldl puts_entry h).2

/-! ## The headers of a request -/

theorem named_standard : Named standard := by
  simp [Named, standard, Value.isText]

theorem merged_eq (client draft : Entries) :
    merged client draft = putAll [] (standard ++ client ++ draft) := by
  have hstandard : putAll [] standard = standard := rfl
  simp only [merged, putAll, List.foldl_append] at hstandard ⊢
  rw [hstandard]

theorem gathers_merged {client draft : Entries} (hclient : Named client) (hdraft : Named draft) :
    Gathers caseless (standard ++ client ++ draft) (merged client draft) := by
  rw [merged_eq]
  exact (gathers_foldl puts_put ((named_standard.append hclient).append hdraft)).2

/-- What is documented of the headers of a request. Each name stands there once, whatever its letter
case, and the names are those of all sources in the order in which they first appear. A header is
the last one of its name in the draft, or else in the client, or else in the standard headers, with
its spelling and its value. -/
structure Merges (client draft sent : Entries) : Prop where
  once : ∀ header ∈ sent,
    sent.filter (fun other => caseless other.1 = caseless header.1) = [header]
  names : ∀ name, name ∈ sent.map (fun header => caseless header.1) ↔
    (∃ header ∈ standard, caseless header.1 = name) ∨
      (∃ header ∈ client, caseless header.1 = name) ∨ ∃ header ∈ draft, caseless header.1 = name
  wins : ∀ header ∈ sent, some header =
    (last? caseless draft (caseless header.1)).or
      ((last? caseless client (caseless header.1)).or
        (last? caseless standard (caseless header.1)))
  order : sent.map (fun header => caseless header.1) =
    ((standard ++ client ++ draft).map fun header => caseless header.1).eraseDups

theorem merges_merged {client draft : Entries} (hclient : Named client) (hdraft : Named draft) :
    Merges client draft (merged client draft) := by
  have hgathers := gathers_merged hclient hdraft
  refine ⟨fun header hheader => filter_key_of_nodup hgathers.nodup hheader, fun name => ?_,
    fun header hheader => ?_, hgathers.keys⟩
  · rw [hgathers.mem_keys_iff]
    simp only [List.map_append, List.mem_append, List.mem_map, or_assoc]
  · rw [← hgathers.last header hheader, last?_append, last?_append]

end Headers

namespace Client
variable {client : Client} {draft : Draft}

theorem sent_of_request {request : Request} (h : client.request draft = .ok request)
    (type : Option ResultType) (wire : Wire) :
    (client.execute draft wire).2.sent = wire.sent ++ [request] ∧
      (client.run draft type wire).2.sent = wire.sent ++ [request] := by
  have hexecute : (client.execute draft wire).2.sent = wire.sent ++ [request] := by
    rw [execute_of_request h]
    rfl
  exact ⟨hexecute, hexecute⟩

/-- A draft whose body can be written is sent, under the headers that its own ones, those of the
client and the standard ones make in this order of precedence. -/
theorem sent_headers_merge (hclient : Headers.Named client.headers)
    (hdraft : Headers.Named draft.headers) {data : String}
    (hdata : payload draft = .ok data) (type : Option ResultType)
    (wire : Wire) :
    ∃ request, (client.execute draft wire).2.sent = wire.sent ++ [request] ∧
      (client.run draft type wire).2.sent = wire.sent ++ [request] ∧ request.data = data ∧
      Headers.Merges client.headers draft.headers request.headers := by
  have hrequest := request_eq_ok hdata (hclient.append hdraft).misnamed?
  obtain ⟨hexecute, hrun⟩ := sent_of_request hrequest type wire
  exact ⟨_, hexecute, hrun, rfl, Headers.merges_merged hclient hdraft⟩

def tracedClient : Client :=
  { url := "/graphql", headers := [(.str "X-Trace", .str "1"), (.str "accept", .str "text/plain")] }

def tracedDraft : Draft :=
  { query := "\x7b hero \x7d", headers := [(.str "x-trace", .str "2"), (.str "X-TRACE", .str "3")] }

theorem sent_headers_merge_traced : Headers.Named tracedClient.headers ∧
    Headers.Named tracedDraft.headers ∧
    (∃ data, payload tracedDraft = .ok data) ∧
    ∃ request, (tracedClient.execute tracedDraft { replies := [] }).2.sent = [request] ∧
      request.headers.map (fun header => Headers.caseless header.1) =
        ["content-type", "accept", "x-trace"] ∧
      ∀ header ∈ request.headers, Headers.caseless header.1 = "x-trace" →
        header = (.str "X-TRACE", .str "3") := by
  have hclient : Headers.Named tracedClient.headers := by
    simp [tracedClient, Headers.Named, Value.isText]
  have hdraft : Headers.Named tracedDraft.headers := by
    simp [tracedDraft, Headers.Named, Value.isText]
  have hdata : ∃ data, payload tracedDraft = .ok data := ⟨_, rfl⟩
  obtain ⟨data, hwritten⟩ := hdata
  obtain ⟨request, hsent, -, -, hmerges⟩ :=
    sent_headers_merge hclient hdraft hwritten none { replies := [] }
  refine ⟨hclient, hdraft, ⟨data, hwritten⟩, request, hsent, ?_, fun header hheader hname => ?_⟩
  · rw [hmerges.order]
    decide +kernel
  · have hwins := hmerges.wins header hheader
    rw [hname] at hwins
    exact Option.some.inj hwins

end Client
end SchemaScribe
