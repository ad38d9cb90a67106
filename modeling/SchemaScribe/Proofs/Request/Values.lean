import SchemaScribe.Proofs.Request.Unshared
import SchemaScribe.Proofs.Request.Variables

/-! # Drafts whose values are not shared

Where all values that are set and put in are new, and none has a list or a dictionary in it twice,
nothing is shared. Then variables and bodies can be told of by their values alone: an edit changes
the value at its path and nothing else.
-/
namespace SchemaScribe

/-- Whatever the step brings is new and has no list or dictionary in it twice. -/
def WorkStep.Unshared : WorkStep → Prop
  | .setVariable _ (.new held) => held.numbers.Nodup
  | .setVariable _ (.held ..) => False
  | .editVariable _ _ new | .editBody _ _ new => new.numbers.Nodup
  | _ => True

/-- The account of variables by their values. -/
def Account.plain : Account Value where
  set? _
    | .setVariable name (.new held) => if name.hashable then some (name, held.value) else none
    | _ => none
  edited _ key value
    | .editVariable name path new =>
      if name.hashable && key.same name then
        (Value.edit new.value path value).toOption.getD value
      else value
    | _ => value

theorem Entries.Keyed.values {entries : List (Value × Held)} (h : Entries.Keyed entries) :
    Entries.Keyed (Held.values entries) := by
  refine ⟨fun entry hentry => ?_, List.pairwise_map.mpr h.once⟩
  obtain ⟨held, hheld, rfl⟩ := List.mem_map.mp hentry
  exact h.hashable held hheld

namespace Workbench
open Account Held

/-- No list or dictionary is in two places, as far as variables and bodies go. -/
structure Single (bench : Workbench) : Prop where
  holdings : bench.holdings.numbers.Nodup
  bodies : ∀ body ∈ bench.bodies, body.numbers.Nodup

variable {bench : Workbench} {name key : Value} {path : List Value} {held new : Held}
  {change : Change}

theorem single_opened (query : String) : Single (opened query) :=
  ⟨List.nodup_nil, by simp [opened]⟩

theorem not_mem_moved_of_lt {number : Nat} (h : number < bench.fresh) :
    number ∉ (new.moved bench.fresh).numbers :=
  fun hnew => absurd h (Nat.not_lt.mpr (mem_numbers_moved hnew).1)

theorem variableChange_eq_ok : bench.variableChange name path new = .ok change ↔
    ∃ held, bench.binding name = .ok held ∧ edit (new.moved bench.fresh) path held = .ok change :=
  Success.bind_eq_ok

theorem binding_eq_ok : bench.binding name = .ok held ↔
    name.hashable = true ∧ Entries.value? bench.bindings name = some held := by
  rw [binding]
  cases name.hashable with
  | false => simp
  | true => cases Entries.value? bench.bindings name <;> simp

/-! ## Steps -/

namespace Single

theorem setVariable (hs : Single bench) (ha : Apart bench) (hn : new.numbers.Nodup) (name : Value)
    (fresh : Nat) : Single { bench with
      bindings := Entries.put name (new.moved bench.fresh) bench.bindings, fresh } := by
  obtain ⟨-, hparts, hseparate⟩ := nodup_numbers_iff.mp hs.holdings
  have hapart : ∀ part ∈ bench.bindings.map Prod.snd, ∀ number ∈ part.numbers,
      number ∉ (new.moved bench.fresh).numbers := fun part hpart number hn =>
    not_mem_moved_of_lt (ha.below _ holdings_mem_roots number
      (mem_numbers.mpr (.inr ⟨part, hpart, hn⟩)))
  refine ⟨nodup_numbers_iff.mpr ⟨nofun, fun part hpart => ?_, ?_⟩, hs.bodies⟩
  · rcases mem_of_put hpart with hold | rfl
    · exact hparts part hold
    · exact nodup_moved bench.fresh hn
  · exact separate_put hseparate hapart name

theorem keepBody (hs : Single bench) (ha : Apart bench) : Single bench.keepBody := by
  refine ⟨hs.holdings, fun body hbody => ?_⟩
  rcases List.mem_append.mp hbody with hbody | hbody
  · exact hs.bodies body hbody
  obtain rfl := List.mem_singleton.mp hbody
  have hvariables : (Held.dict bench.fresh bench.bindings).numbers.Nodup := by
    obtain ⟨-, hparts, hseparate⟩ := nodup_numbers_iff.mp hs.holdings
    refine nodup_numbers_iff.mpr ⟨fun number hown part hpart hin => ?_, hparts, hseparate⟩
    cases hown
    have hlt := ha.below _ holdings_mem_roots bench.fresh (mem_numbers.mpr (.inr ⟨part, hpart, hin⟩))
    exact lt_irrefl _ hlt
  have hcopied : bench.copied.numbers.Nodup := nodup_moved (bench.fresh + 1) hvariables
  have hnot : bench.fresh ∉ bench.copied.numbers := fun hin =>
    absurd (mem_numbers_moved hin).1 (Nat.not_succ_le_self _)
  rw [ha.numbers_newBody]
  exact List.nodup_cons.mpr ⟨hnot, hcopied⟩

/-- A change of what a variable holds, with new values. -/
theorem amendVariable (hs : Single bench) (ha : Apart bench) (hnew : new.numbers.Nodup)
    (hchange : bench.variableChange name path new = .ok change) :
    Single (bench.amend change new.bound) := by
  obtain ⟨held, hheld, hedit⟩ := variableChange_eq_ok.mp hchange
  have hpart : held ∈ bench.holdings.inner := mem_of_binding hheld
  have hapart : ∀ number ∈ bench.holdings.numbers, number ∉ (new.moved bench.fresh).numbers :=
    fun number hn => not_mem_moved_of_lt (ha.below _ holdings_mem_roots number hn)
  have hheldApart : ∀ number ∈ held.numbers, number ∉ (new.moved bench.fresh).numbers :=
    fun number hn => hapart number (mem_numbers.mpr (.inr ⟨held, hpart, hn⟩))
  have hheldNodup := (nodup_numbers_iff.mp hs.holdings).2.1 held hpart
  have hchanged := nodup_edit (nodup_moved _ hnew) hheldNodup hheldApart hedit
  refine ⟨?_, fun body hbody => hs.bodies body ?_⟩
  · rw [holdings_amend]
    exact nodup_changed_of_part hs.holdings hapart hpart (of_edit hedit) hchanged
  · exact ha.bodies_changed (ha.editVariable hchange).2 ▸ hbody

/-- A change of a kept body, with new values. -/
theorem amendBody (hs : Single bench) (ha : Apart bench) (hnew : new.numbers.Nodup) {i : Nat}
    {body : Held} (hi : bench.bodies[i]? = some body)
    (hedit : edit (new.moved bench.fresh) path body = .ok change) :
    Single (bench.amend change new.bound) := by
  have hwithin := (of_edit hedit).within
  have hbody := List.mem_of_getElem? hi
  have hapart : ∀ number ∈ body.numbers, number ∉ (new.moved bench.fresh).numbers :=
    fun number hn => not_mem_moved_of_lt (ha.below _ (body_mem_roots hi) number hn)
  have hvalues : change.number ∉ bench.holdings.numbers := fun hin =>
    (List.pairwise_cons.mp ha.apart).1 body hbody _ hin hwithin
  refine ⟨?_, fun other hother => ?_⟩
  · rw [holdings_amend, changed_of_not_mem hvalues]
    exact hs.holdings
  · obtain ⟨old, hold, rfl⟩ := List.mem_map.mp hother
    by_cases hin : change.number ∈ old.numbers
    · obtain rfl := ha.apart.eq_of_mem (body_mem_roots hi) (List.mem_cons_of_mem _ hold) hwithin hin
      exact nodup_edit (nodup_moved _ hnew) (hs.bodies body hbody) hapart hedit
    · exact (changed_of_not_mem hin).symm ▸ hs.bodies old hold

theorem next (hs : Single bench) (ha : Apart bench) {work : WorkStep} (hwork : work.Unshared) :
    Single (bench.next work) := by
  cases work with
  | setVariable name given =>
    cases given with
    | new held =>
      rw [next_setVariable]
      simp only [take]
      split
      · exact hs.setVariable ha hwork name _
      · exact hs
    | held => cases hwork
  | setHeader name value => rw [next_setHeader]; exact ⟨hs.holdings, hs.bodies⟩
  | setOperation name => exact ⟨hs.holdings, hs.bodies⟩
  | makeBody =>
    rw [next_makeBody]
    split
    · exact hs.keepBody ha
    · exact hs
  | editBody index path new =>
    rcases bench.editBody_cases index path new with ⟨i, body, change, -, hi, hedit, hnext⟩ | ⟨hnext, -⟩
    · rw [hnext]
      exact hs.amendBody ha hwork hi hedit
    · rwa [hnext]
  | readBody index => rwa [next_readBody]
  | editVariable name path new =>
    rw [next_editVariable]
    cases hchange : bench.variableChange name path new with
    | error fault => exact hs
    | ok change => exact hs.amendVariable ha hwork hchange
  | «show» => rwa [next_show]

/-- What is changed under one name is in no entry with another one. -/
theorem not_mem_of_not_same (hs : Single bench)
    (hchange : bench.variableChange name path new = .ok change) {entry : Value × Held}
    (hentry : entry ∈ bench.bindings) (hname : entry.1.same name = false) :
    change.number ∉ entry.2.numbers := by
  obtain ⟨held, hheld, hedit⟩ := variableChange_eq_ok.mp hchange
  obtain ⟨found, hfind, rfl⟩ := Option.map_eq_some_iff.mp (binding_eq_ok.mp hheld).2
  have hsame : found.1.same name = true :=
    List.find?_some (p := fun entry : Value × Held => entry.1.same name) hfind
  have hne : found ≠ entry := by
    rintro rfl
    rw [hname] at hsame
    exact Bool.false_ne_true hsame
  have hseparate : bench.bindings.Pairwise fun a b => ∀ number ∈ a.2.numbers, number ∉ b.2.numbers :=
    List.pairwise_map.mp (nodup_numbers_iff.mp hs.holdings).2.2
  have : Std.Symm fun a b : Value × Held => ∀ number ∈ a.2.numbers, number ∉ b.2.numbers :=
    ⟨fun a b hab number hb ha => hab number ha hb⟩
  exact hseparate.forall (List.mem_of_find?_eq_some hfind) hentry hne _ (of_edit hedit).within

/-- What an edit of a variable makes of the value of each one. -/
theorem value_edited (hs : Single bench) (hk : Entries.Keyed bench.bindings)
    {entry : Value × Held} (hentry : entry ∈ bench.bindings) (name : Value) (path : List Value)
    (new : Held) :
    (holding.edited bench entry.1 entry.2 (.editVariable name path new)).value =
      Account.plain.edited bench entry.1 entry.2.value (.editVariable name path new) := by
  simp only [holding, Account.plain]
  cases hname : name.hashable && entry.1.same name with
  | true =>
    obtain ⟨hhash, hsame⟩ := Bool.and_eq_true_iff.mp hname
    have hfound : Entries.value? bench.bindings name = some entry.2 := by
      cases hvalue : Entries.value? bench.bindings name with
      | none =>
        rw [Entries.value?_eq_none_iff.mp hvalue entry hentry] at hsame
        exact absurd hsame Bool.false_ne_true
      | some held => rw [hk.eq_held hvalue entry hentry hsame]
    have hchange : bench.variableChange name path new =
        edit (new.moved bench.fresh) path entry.2 := by
      rw [variableChange, binding_eq_ok.mpr ⟨hhash, hfound⟩, Success.ok_bind]
    have hnodup := (nodup_numbers_iff.mp hs.holdings).2.1 entry.2 (List.mem_map_of_mem hentry)
    have hmirror := mirrors_of_nodup (new.moved bench.fresh) path hnodup
    rw [hchange, if_pos rfl]
    exact value_moved bench.fresh new ▸ hmirror.value_edit
  | false =>
    rw [if_neg Bool.false_ne_true]
    cases hchange : bench.variableChange name path new with
    | error fault => rfl
    | ok change =>
      obtain ⟨held, hheld, -⟩ := variableChange_eq_ok.mp hchange
      have hother : entry.1.same name = false := by
        simpa [(binding_eq_ok.mp hheld).1] using hname
      exact congrArg Held.value
        (changed_of_not_mem (hs.not_mem_of_not_same hchange hentry hother))

theorem value_after (hs : Single bench) (hk : Entries.Keyed bench.bindings) {entry : Value × Held}
    (hentry : entry ∈ bench.bindings) {work : WorkStep} (hwork : work.Unshared) :
    (holding.after bench entry.1 entry.2 work).value =
      Account.plain.after bench entry.1 entry.2.value work := by
  cases work with
  | setVariable name given =>
    cases given with
    | new held =>
      simp only [after, holding, Account.plain, take]
      cases name.hashable with
      | false => rfl
      | true =>
        simp only [if_true, Except.toOption, Option.map_some]
        split <;> simp [value_moved]
    | held => cases hwork
  | editVariable name path new => exact hs.value_edited hk hentry name path new
  | _ => rfl

end Single

theorem new?_value {known : List Value} {work : WorkStep} (hwork : work.Unshared) :
    (holding.new? bench known work).map (fun entry => (entry.1, entry.2.value)) =
      Account.plain.new? bench known work := by
  cases work with
  | setVariable name given =>
    cases given with
    | new held =>
      simp only [new?, holding, Account.plain, take]
      cases name.hashable with
      | false => rfl
      | true =>
        simp only [if_true, Except.toOption, Option.map_some, Option.filter_some]
        split <;> simp [value_moved]
    | held => cases hwork
  | _ => rfl

theorem single_run {query : String} {steps : List WorkStep}
    (hnames : ∀ name, WorkStep.setOperation name ∈ steps → name.numbers = [])
    (hsteps : ∀ work ∈ steps, work.Unshared) : Single ((opened query).run steps) := by
  induction steps using List.reverseRecOn with
  | nil => exact single_opened query
  | append_singleton steps work ih =>
    have hbefore : ∀ name, WorkStep.setOperation name ∈ steps → name.numbers = [] :=
      fun name hname => hnames name (List.mem_append_left _ hname)
    rw [run_concat]
    exact (ih hbefore fun work hwork => hsteps work (List.mem_append_left _ hwork)).next
      ((apart_opened query).run hbefore) (hsteps work (by simp))

/-- Where nothing is shared, the values of the variables are those that the steps tell by value. -/
theorem values_told (query : String) {steps : List WorkStep}
    (hnames : ∀ name, WorkStep.setOperation name ∈ steps → name.numbers = [])
    (hsteps : ∀ work ∈ steps, work.Unshared) :
    Held.values (holding.told query steps) = Account.plain.told query steps := by
  induction steps using List.reverseRecOn with
  | nil => rfl
  | append_singleton steps work ih =>
    have hbefore : ∀ name, WorkStep.setOperation name ∈ steps → name.numbers = [] :=
      fun name hname => hnames name (List.mem_append_left _ hname)
    have hunshared : ∀ work ∈ steps, work.Unshared := fun work hwork =>
      hsteps work (List.mem_append_left _ hwork)
    have hwork : work.Unshared := hsteps work (by simp)
    have hs : Single ((opened query).run steps) := single_run hbefore hunshared
    have hrun := bindings_run query hbefore
    have hk : Entries.Keyed ((opened query).run steps).bindings :=
      hrun ▸ holding.keyed_told names_holding query steps
    have hheld : ∀ entry ∈ holding.told query steps,
        (entry.1, (holding.after ((opened query).run steps) entry.1 entry.2 work).value) =
          (entry.1, Account.plain.after ((opened query).run steps) entry.1 entry.2.value work) :=
      fun entry hentry => by rw [hs.value_after hk (hrun ▸ hentry) hwork]
    have hkeys : (Held.values (holding.told query steps)).map Prod.fst =
        (holding.told query steps).map Prod.fst := by
      rw [Held.values, List.map_map]
      rfl
    rw [holding.told_concat, Account.plain.told_concat, ← ih hbefore hunshared, hkeys,
      ← new?_value hwork, Held.values, Held.values, List.map_append, List.map_map, List.map_map,
      Option.toList_map]
    exact congrArg (· ++ _) (List.map_congr_left hheld)

end Workbench
end SchemaScribe
