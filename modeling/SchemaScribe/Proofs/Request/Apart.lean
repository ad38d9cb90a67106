import SchemaScribe.Proofs.Request.Steps

/-! # Draft and bodies apart

As long as the operation names that are set have no list and no dictionary in them, a list or a
dictionary is held by the variables alone or by one kept body alone. So what is changed in one of
them is changed in no other one. It would not be so if a body were made without a copy.
-/
namespace SchemaScribe
namespace Workbench

/-- All that the variables hold. -/
def holdings (bench : Workbench) : Held := .tuple (bench.bindings.map Prod.snd)

/-- What holds something of its own: the variables together, and each kept body. -/
def roots (bench : Workbench) : List Held := bench.holdings :: bench.bodies

/-- No two roots have a number in common, and none has one that is to be given yet. -/
structure Apart (bench : Workbench) : Prop where
  name : bench.operation.numbers = []
  below : ∀ root ∈ bench.roots, ∀ number ∈ root.numbers, number < bench.fresh
  apart : Held.Separate bench.roots

variable {bench : Workbench} {root body new : Held} {change : Held.Change} {number i j : Nat}

theorem mem_numbers_holdings :
    number ∈ bench.holdings.numbers ↔ ∃ entry ∈ bench.bindings, number ∈ entry.2.numbers := by
  rw [holdings, Held.numbers_tuple, List.mem_flatMap]
  simp only [List.mem_map, exists_exists_and_eq_and]

theorem holdings_mem_roots : bench.holdings ∈ bench.roots := List.mem_cons_self

theorem body_mem_roots (h : bench.bodies[i]? = some body) : body ∈ bench.roots :=
  List.mem_cons_of_mem _ (List.mem_of_getElem? h)

theorem holdings_amend (change : Held.Change) (brought : Nat) :
    (bench.amend change brought).holdings = bench.holdings.changed change := by
  rw [holdings, holdings, Held.changed_tuple, amend, List.map_map, List.map_map]
  rfl

theorem roots_amend (change : Held.Change) (brought : Nat) :
    (bench.amend change brought).roots = bench.roots.map (·.changed change) := by
  rw [roots, holdings_amend]
  rfl

theorem apart_opened (query : String) : Apart (opened query) where
  name := rfl
  below := by simp [roots, holdings, opened]
  apart := List.pairwise_singleton ..

namespace Apart

/-! ## What a change leaves alone -/

theorem operation_changed (h : Apart bench) (change : Held.Change) :
    bench.operation.changed change = bench.operation :=
  Held.changed_of_not_mem (by simp [h.name])

/-- A change inside a body leaves what the variables hold. -/
theorem bindings_changed (h : Apart bench) (hbody : bench.bodies[i]? = some body)
    (hchange : change.number ∈ body.numbers) :
    bench.bindings.map (fun entry => (entry.1, entry.2.changed change)) = bench.bindings := by
  have hapart := (List.pairwise_cons.mp h.apart).1 body (List.mem_of_getElem? hbody)
  have hkept : ∀ entry ∈ bench.bindings, (entry.1, entry.2.changed change) = entry :=
    fun entry hentry => by
      have hvalues : change.number ∉ bench.holdings.numbers := fun hv => hapart _ hv hchange
      rw [mem_numbers_holdings] at hvalues
      push Not at hvalues
      rw [Held.changed_of_not_mem (hvalues entry hentry)]
  rw [List.map_congr_left hkept, List.map_id']

/-- A change inside what a variable holds leaves every body. -/
theorem bodies_changed (h : Apart bench) (hchange : change.number ∈ bench.holdings.numbers) :
    bench.bodies.map (·.changed change) = bench.bodies := by
  have hapart := (List.pairwise_cons.mp h.apart).1
  have hkept : ∀ body ∈ bench.bodies, body.changed change = body := fun body hbody =>
    Held.changed_of_not_mem (hapart body hbody _ hchange)
  rw [List.map_congr_left hkept, List.map_id']

/-- A change inside a body leaves every other body. -/
theorem body_changed (h : Apart bench) (hbody : bench.bodies[i]? = some body)
    (hchange : change.number ∈ body.numbers) (hne : i ≠ j) :
    (bench.bodies.map (·.changed change))[j]? = bench.bodies[j]? := by
  have hbodies := (List.pairwise_cons.mp h.apart).2
  rw [List.pairwise_iff_getElem] at hbodies
  rw [List.getElem?_map]
  cases hother : bench.bodies[j]? with
  | none => rfl
  | some other =>
    obtain ⟨hi, rfl⟩ := List.getElem?_eq_some_iff.mp hbody
    obtain ⟨hj, rfl⟩ := List.getElem?_eq_some_iff.mp hother
    have hapart : change.number ∉ bench.bodies[j].numbers := by
      intro hmem
      rcases Nat.lt_or_gt_of_ne hne with hlt | hgt
      · exact hbodies i j hi hj hlt _ hchange hmem
      · exact hbodies j i hj hi hgt _ hmem hchange
    rw [Option.map_some, Held.changed_of_not_mem hapart]

/-! ## Steps -/

/-- A change of something in a root, with new values, keeps the roots apart. -/
theorem amend (h : Apart bench) (hroot : root ∈ bench.roots)
    (hof : change.Of root (new.moved bench.fresh)) : Apart (bench.amend change new.bound) := by
  have hbrings : ∀ number ∈ change.form.numbers, number ∈ root.numbers ∨
      bench.fresh ≤ number ∧ number < bench.fresh + new.bound := fun number hnumber =>
    (hof.brings number hnumber).imp_right Held.mem_numbers_moved
  have hname : (bench.operation.changed change).numbers = [] := by
    rw [h.operation_changed, h.name]
  refine ⟨hname, fun other hother number hnumber => ?_, ?_⟩
  · rw [roots_amend] at hother
    obtain ⟨old, hold, rfl⟩ := List.mem_map.mp hother
    have hbelow : number < bench.fresh ∨ number < bench.fresh + new.bound := by
      rcases Held.mem_numbers_changed hnumber with hn | ⟨-, hn⟩
      · exact .inl (h.below old hold number hn)
      rcases hbrings number hn with hn | ⟨-, hn⟩
      · exact .inl (h.below root hroot number hn)
      · exact .inr hn
    exact hbelow.elim (fun hlt => Nat.lt_add_right _ hlt) id
  · rw [roots_amend]
    exact h.apart.changed hroot hof.within hbrings fun other hother number hn hfree =>
      Nat.not_lt.mpr hfree.1 (h.below other hother number hn)

theorem setBinding (h : Apart bench) {given : Given} {held : Held} {fresh : Nat}
    (htake : bench.take given = .ok (held, fresh)) (name : Value) :
    Apart { bench with bindings := Entries.put name held bench.bindings, fresh } := by
  obtain ⟨hfresh, hnumbers⟩ := take_cases htake
  have hvalues : ∀ number,
      (∃ entry ∈ Entries.put name held bench.bindings, number ∈ entry.2.numbers) →
        number ∈ bench.holdings.numbers ∨ bench.fresh ≤ number ∧ number < fresh := by
    rintro number ⟨entry, hentry, hnumber⟩
    rcases Held.mem_of_put (List.mem_map_of_mem hentry) with hold | rfl
    · obtain ⟨old, hold, heq⟩ := List.mem_map.mp hold
      exact .inl (mem_numbers_holdings.mpr ⟨old, hold, heq ▸ hnumber⟩)
    · exact (hnumbers number hnumber).imp_left mem_numbers_holdings.mpr
  have hapart := List.pairwise_cons.mp h.apart
  refine ⟨h.name, fun root hroot number hnumber => ?_, List.pairwise_cons.mpr ⟨?_, hapart.2⟩⟩
  · rcases List.mem_cons.mp hroot with rfl | hbody
    · rcases hvalues number (mem_numbers_holdings.mp hnumber) with hold | ⟨-, hlt⟩
      · exact lt_of_lt_of_le (h.below _ holdings_mem_roots number hold) hfresh
      · exact hlt
    · exact lt_of_lt_of_le (h.below root (List.mem_cons_of_mem _ hbody) number hnumber) hfresh
  · intro body hbody number hnumber hin
    rcases hvalues number (mem_numbers_holdings.mp hnumber) with hold | ⟨hge, -⟩
    · exact hapart.1 body hbody number hold hin
    · have hlt := h.below body (List.mem_cons_of_mem _ hbody) number hin
      exact absurd hlt (Nat.not_lt.mpr hge)

theorem numbers_newBody (h : Apart bench) :
    bench.newBody.numbers = bench.fresh :: bench.copied.numbers := by
  have hname := h.name
  rw [newBody, Held.numbers_dict, ← copied]
  split <;> simp [hname]

/-- The numbers of a new body are all new. -/
theorem mem_numbers_newBody (h : Apart bench) (hnumber : number ∈ bench.newBody.numbers) :
    bench.fresh ≤ number ∧ number < 2 * bench.fresh + 2 := by
  rw [h.numbers_newBody, List.mem_cons] at hnumber
  rcases hnumber with rfl | hin
  · omega
  · have hcopied := mem_numbers_copied (fun entry hentry number hn => h.below _ holdings_mem_roots
      number (mem_numbers_holdings.mpr ⟨entry, hentry, hn⟩)) hin
    omega

theorem keepBody (h : Apart bench) : Apart bench.keepBody := by
  have hroots : bench.keepBody.roots = bench.roots ++ [bench.newBody] := rfl
  refine ⟨h.name, fun root hroot number hnumber => ?_, ?_⟩
  · rw [hroots, List.mem_append, List.mem_singleton] at hroot
    rcases hroot with hroot | rfl
    · have hlt := h.below root hroot number hnumber
      exact show number < 2 * bench.fresh + 2 by omega
    · exact (h.mem_numbers_newBody hnumber).2
  · rw [hroots, Held.Separate, List.pairwise_append]
    refine ⟨h.apart, List.pairwise_singleton .., fun root hroot body hbody number hn hm => ?_⟩
    obtain rfl := List.mem_singleton.mp hbody
    have hlt := h.below root hroot number hn
    have hge := (h.mem_numbers_newBody hm).1
    omega

theorem setOperation (h : Apart bench) {name : Held} (hname : name.numbers = []) :
    Apart (bench.next (.setOperation name)) := by
  have hbound : name.bound = 0 := by rw [Held.bound, hname, List.foldr_nil]
  have hnext : bench.next (.setOperation name) =
      { bench with operation := name.moved bench.fresh, fresh := bench.fresh + name.bound } := rfl
  rw [hnext, hbound]
  refine ⟨?_, h.below, h.apart⟩
  rw [Held.numbers_moved, hname, List.map_nil]

theorem editVariable (h : Apart bench) {name : Value} {path : List Value}
    (hchange : bench.variableChange name path new = .ok change) :
    Apart (bench.amend change new.bound) ∧ change.number ∈ bench.holdings.numbers := by
  obtain ⟨held, hheld, hedit⟩ := Success.bind_eq_ok.mp hchange
  have hof := Held.of_edit hedit
  obtain ⟨entry, hentry, rfl⟩ := List.mem_map.mp (mem_of_binding hheld)
  have hvalues : ∀ number ∈ entry.2.numbers, number ∈ bench.holdings.numbers := fun number hn =>
    mem_numbers_holdings.mpr ⟨entry, hentry, hn⟩
  exact ⟨h.amend holdings_mem_roots ⟨hvalues _ hof.within, fun number hn =>
    (hof.brings number hn).imp_left (hvalues number)⟩, hvalues _ hof.within⟩

/-- Every step keeps draft and bodies apart, if an operation name that it sets has nothing in it that
could be changed. -/
theorem next (h : Apart bench) {work : WorkStep}
    (hwork : ∀ name, work = .setOperation name → name.numbers = []) : Apart (bench.next work) := by
  cases work with
  | setVariable name given =>
    rw [next_setVariable]
    cases htake : bench.take given with
    | error fault => exact h
    | ok found =>
      dsimp only
      split
      · exact h.setBinding htake name
      · exact h
  | setHeader name value =>
    rw [next_setHeader]
    exact ⟨h.name, h.below, h.apart⟩
  | setOperation name => exact h.setOperation (hwork name rfl)
  | makeBody =>
    rw [next_makeBody]
    split
    · exact h.keepBody
    · exact h
  | editBody index path new =>
    rcases bench.editBody_cases index path new with ⟨i, body, change, -, hi, hedit, hnext⟩ | ⟨hnext, -⟩
    · rw [hnext]
      exact h.amend (body_mem_roots hi) (Held.of_edit hedit)
    · rwa [hnext]
  | readBody index => rwa [next_readBody]
  | editVariable name path new =>
    rw [next_editVariable]
    cases hchange : bench.variableChange name path new with
    | error fault => exact h
    | ok change => exact (h.editVariable hchange).1
  | «show» => rwa [next_show]

theorem run (h : Apart bench) {steps : List WorkStep}
    (hnames : ∀ name, WorkStep.setOperation name ∈ steps → name.numbers = []) :
    Apart (bench.run steps) := by
  induction steps generalizing bench with
  | nil => exact h
  | cons work later ih =>
    refine ih (h.next fun name hwork => ?_) fun name hname => ?_
    · exact hnames name (hwork ▸ List.mem_cons_self)
    · exact hnames name (List.mem_cons_of_mem work hname)

end Apart
end Workbench
end SchemaScribe
