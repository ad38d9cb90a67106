import SchemaScribe.Proofs.Request.Values

/-! # Numbers that stand for one thing

Lists and dictionaries with one number are to be one and the same. They are so in whatever is made
of a new draft, as long as they are in each value that is set or put in. So none is inside itself,
and a change reaches it wherever it is held.
-/
namespace SchemaScribe
namespace Held

variable {roots news others : List Held} {part held root target new : Held} {number places : Nat}
  {change : Change}

/-- What stands somewhere in one of them. -/
def Among (part : Held) (roots : List Held) : Prop := ∃ root ∈ roots, part.Inside root

/-- What has one number is one and the same. -/
def Coherent (roots : List Held) : Prop :=
  ∀ part other : Held, part.Among roots → other.Among roots → ∀ number,
    part.own? = some number → other.own? = some number → part = other

theorem Among.of_subset (h : part.Among others) (hsub : others ⊆ roots) : part.Among roots :=
  h.imp fun _ => And.imp_left fun hroot => hsub hroot

theorem Among.exists_mem (h : part.Among roots) (hown : part.own? = some number) :
    ∃ root ∈ roots, number ∈ root.numbers :=
  h.imp fun _ => And.imp_right fun hinside => mem_numbers_iff_inside.mpr ⟨part, hinside, hown⟩

namespace Coherent

theorem mono (h : Coherent roots) (hparts : ∀ part : Held, part.Among others → ∀ number,
    part.own? = some number → part.Among roots) : Coherent others :=
  fun part other hpart hother number hown hotherOwn =>
    h part other (hparts part hpart number hown) (hparts other hother number hotherOwn) number hown
      hotherOwn

theorem of_subset (h : Coherent roots) (hsub : others ⊆ roots) : Coherent others :=
  h.mono fun _ hpart _ _ => hpart.of_subset hsub

/-- What has no number in common with the others can be put beside them. -/
theorem append (h : Coherent roots) (hnews : Coherent news)
    (hfree : ∀ root ∈ roots, ∀ number ∈ root.numbers, ∀ new ∈ news, number ∉ new.numbers) :
    Coherent (roots ++ news) := by
  have hnone : ∀ {part other : Held} {number}, part.Among roots → other.Among news →
      part.own? = some number → other.own? ≠ some number := by
    intro part other number hpart hother hown hotherOwn
    obtain ⟨root, hroot, hnumber⟩ := hpart.exists_mem hown
    obtain ⟨new, hnew, hin⟩ := hother.exists_mem hotherOwn
    exact hfree root hroot number hnumber new hnew hin
  rintro part other ⟨root, hroot, hpart⟩ ⟨otherRoot, hotherRoot, hother⟩ number hown hotherOwn
  rcases List.mem_append.mp hroot with hroot | hroot <;>
    rcases List.mem_append.mp hotherRoot with hotherRoot | hotherRoot
  · exact h part other ⟨root, hroot, hpart⟩ ⟨otherRoot, hotherRoot, hother⟩ number hown hotherOwn
  · exact absurd hotherOwn (hnone ⟨root, hroot, hpart⟩ ⟨otherRoot, hotherRoot, hother⟩ hown)
  · exact absurd hown (hnone ⟨otherRoot, hotherRoot, hother⟩ ⟨root, hroot, hpart⟩ hotherOwn)
  · exact hnews part other ⟨root, hroot, hpart⟩ ⟨otherRoot, hotherRoot, hother⟩ number hown hotherOwn

/-- A list or dictionary with a number that nothing has can be made of what is there. -/
theorem cons (h : Coherent roots)
    (hown : ∀ number, new.own? = some number → ∀ root ∈ roots, number ∉ root.numbers)
    (hinner : ∀ part ∈ new.inner, part ∈ roots ∨ part.numbers = []) : Coherent (new :: roots) := by
  have hcases : ∀ {part : Held} {number}, part.Among (new :: roots) → part.own? = some number →
      part = new ∨ part.Among roots := by
    rintro part number ⟨root, hroot, hpart⟩ hpartOwn
    rcases List.mem_cons.mp hroot with rfl | hroot
    · cases hpart with
      | whole => exact .inl rfl
      | inner hbetween hpart =>
        rcases hinner _ hbetween with hold | hnone
        · exact .inr ⟨_, hold, hpart⟩
        · have hnumber := mem_numbers_iff_inside.mpr ⟨part, hpart, hpartOwn⟩
          rw [hnone] at hnumber
          cases hnumber
    · exact .inr ⟨root, hroot, hpart⟩
  intro part other hpart hother number hpartOwn hotherOwn
  rcases hcases hpart hpartOwn, hcases hother hotherOwn with ⟨rfl | hold, rfl | hotherOld⟩
  · rfl
  · obtain ⟨root, hroot, hnumber⟩ := hotherOld.exists_mem hotherOwn
    exact absurd hnumber (hown number hpartOwn root hroot)
  · obtain ⟨root, hroot, hnumber⟩ := hold.exists_mem hpartOwn
    exact absurd hnumber (hown number hotherOwn root hroot)
  · exact h part other hold hotherOld number hpartOwn hotherOwn

/-- No list or dictionary is inside itself. -/
theorem not_mem_of_inner (h : Coherent roots) (htarget : target.Among roots)
    (hown : target.own? = some number) (hpart : part ∈ target.inner) : number ∉ part.numbers := by
  intro hnumber
  obtain ⟨found, hfound, hfoundOwn⟩ := mem_numbers_iff_inside.mp hnumber
  obtain ⟨root, hroot, hinside⟩ := htarget
  have hamong : found.Among roots := ⟨root, hroot, (hfound.trans (.inner hpart .whole)).trans hinside⟩
  obtain rfl := h found target hamong ⟨root, hroot, hinside⟩ number hfoundOwn hown
  exact absurd (sizeOf_lt_of_mem_inner hpart) (Nat.not_lt.mpr hfound.sizeOf_le)

end Coherent

/-! ## Changes -/

/-- After a change there are the parts from before, as it changed them, and those that it brought. -/
theorem inside_changed (h : part.Inside (held.changed change)) :
    (∃ old : Held, old.Inside held ∧ part = old.changed change) ∨
      ∃ brought ∈ change.form.inner, part.Inside brought := by
  induction held using Held.induction with
  | step held ih =>
    rcases changed_cases change held with ⟨-, heq⟩ | ⟨-, -, hinner⟩
    · generalize hafter : held.changed change = after at h
      cases h with
      | whole => exact .inl ⟨held, .whole, hafter.symm⟩
      | inner hbetween hpart => exact .inr ⟨_, heq ▸ hafter ▸ hbetween, hpart⟩
    · generalize hafter : held.changed change = after at h
      cases h with
      | whole => exact .inl ⟨held, .whole, hafter.symm⟩
      | inner hbetween hpart =>
        rw [← hafter, hinner] at hbetween
        obtain ⟨between, hmem, rfl⟩ := List.mem_map.mp hbetween
        rcases ih between hmem hpart with ⟨old, hold, rfl⟩ | hbrought
        · exact .inl ⟨old, .inner hmem hold, rfl⟩
        · exact .inr hbrought

/-- A change of one list or dictionary, which leaves it with its parts and what is new, is one change
wherever it is held. -/
theorem Coherent.changed (h : Coherent roots) (htarget : target.Among roots)
    (hown : target.own? = some change.number) (hform : change.form.own? = target.own?)
    (hinner : ∀ part ∈ change.form.inner, part ∈ target.inner ∨ part = new)
    (hnew : Coherent [new]) (hfree : ∀ root ∈ roots, ∀ number ∈ root.numbers, number ∉ new.numbers) :
    Coherent (roots.map (Held.changed change)) := by
  have hkept : ∀ old : Held, (old.changed change).own? = old.own? := by
    intro old
    rcases changed_cases change old with ⟨hold, heq⟩ | ⟨-, hold, -⟩
    · rw [heq, hform, hown, hold]
    · exact hold
  have hparts : ∀ {part : Held}, part.Among (roots.map (Held.changed change)) →
      (∃ old : Held, old.Among roots ∧ part = old.changed change) ∨ part.Among [new] := by
    rintro part ⟨_, hmapped, hpart⟩
    obtain ⟨root, hroot, rfl⟩ := List.mem_map.mp hmapped
    rcases inside_changed hpart with ⟨old, hold, rfl⟩ | ⟨brought, hbrought, hpart⟩
    · exact .inl ⟨old, ⟨root, hroot, hold⟩, rfl⟩
    rcases hinner brought hbrought with hold | rfl
    · -- The parts that the target keeps are not changed, since it is not inside itself.
      have hnone : change.number ∉ part.numbers := fun hnumber =>
        h.not_mem_of_inner htarget hown hold (hpart.mem_numbers hnumber)
      obtain ⟨root, hroot, hinside⟩ := htarget
      exact .inl ⟨part, ⟨root, hroot, (hpart.trans (.inner hold .whole)).trans hinside⟩,
        (changed_of_not_mem hnone).symm⟩
    · exact .inr ⟨brought, List.mem_singleton_self _, hpart⟩
  have hapart : ∀ {old other : Held} {number}, old.Among roots → other.Among [new] →
      old.own? = some number → other.own? ≠ some number := by
    intro old other number hold hother hoid hotherOwn
    obtain ⟨root, hroot, hnumber⟩ := hold.exists_mem hoid
    obtain ⟨_, hmem, hin⟩ := hother.exists_mem hotherOwn
    exact hfree root hroot number hnumber (List.mem_singleton.mp hmem ▸ hin)
  intro part other hpart hother number hpartOwn hotherOwn
  rcases hparts hpart, hparts hother with
    ⟨⟨old, hold, rfl⟩ | hpartNew, ⟨otherOld, hotherOld, rfl⟩ | hotherNew⟩
  · rw [hkept] at hpartOwn hotherOwn
    rw [h old otherOld hold hotherOld number hpartOwn hotherOwn]
  · exact absurd hotherOwn (hapart hold hotherNew (hkept old ▸ hpartOwn))
  · exact absurd hpartOwn (hapart hotherOld hpartNew (hkept otherOld ▸ hotherOwn))
  · exact hnew part other hpartNew hotherNew number hpartOwn hotherOwn

/-! ## New values -/

theorem own?_moved (places : Nat) (held : Held) :
    (held.moved places).own? = held.own?.map (· + places) := by
  cases held <;> simp [own?]

theorem inner_moved (places : Nat) (held : Held) :
    (held.moved places).inner = held.inner.map (moved places) := by
  cases held <;> simp [inner, Function.comp_def]

theorem inside_moved (h : part.Inside (held.moved places)) :
    ∃ old : Held, old.Inside held ∧ part = old.moved places := by
  induction held using Held.induction with
  | step held ih =>
    generalize hmoved : held.moved places = copied at h
    cases h with
    | whole => exact ⟨held, .whole, hmoved.symm⟩
    | inner hbetween hpart =>
      rw [← hmoved, inner_moved] at hbetween
      obtain ⟨between, hmem, rfl⟩ := List.mem_map.mp hbetween
      obtain ⟨old, hold, rfl⟩ := ih between hmem hpart
      exact ⟨old, .inner hmem hold, rfl⟩

theorem among_singleton : part.Among [held] ↔ part.Inside held := by
  simp [Among]

theorem Coherent.moved (h : Coherent [held]) (places : Nat) : Coherent [held.moved places] := by
  intro part other hpart hother number hown hotherOwn
  obtain ⟨old, hold, rfl⟩ := inside_moved (among_singleton.mp hpart)
  obtain ⟨otherOld, hotherOld, rfl⟩ := inside_moved (among_singleton.mp hother)
  rw [own?_moved] at hown hotherOwn
  obtain ⟨n, hn, rfl⟩ := Option.map_eq_some_iff.mp hown
  obtain ⟨m, hm, heq⟩ := Option.map_eq_some_iff.mp hotherOwn
  obtain rfl := Nat.add_right_cancel heq
  rw [h old otherOld (among_singleton.mpr hold) (among_singleton.mpr hotherOld) m hn hm]

/-- A value with no number twice. -/
theorem coherent_of_nodup (hn : held.numbers.Nodup) : Coherent [held] := by
  suffices hone : ∀ part other : Held, part.Inside held → other.Inside held → ∀ number,
      part.own? = some number → other.own? = some number → part = other from
    fun part other hpart hother =>
      hone part other (among_singleton.mp hpart) (among_singleton.mp hother)
  induction held using Held.induction with
  | step held ih =>
    obtain ⟨hnumber, hparts, hs⟩ := nodup_numbers_iff.mp hn
    intro part other hpart hother number hown hotherOwn
    cases hpart with
    | whole =>
      cases hother with
      | whole => rfl
      | inner hmem hother =>
        exact absurd (mem_numbers_iff_inside.mpr ⟨other, hother, hotherOwn⟩)
          (hnumber number hown _ hmem)
    | inner hmem hpart =>
      have hin := mem_numbers_iff_inside.mpr ⟨part, hpart, hown⟩
      cases hother with
      | whole => exact absurd hin (hnumber number hotherOwn _ hmem)
      | inner hotherMem hother =>
        have hotherIn := mem_numbers_iff_inside.mpr ⟨other, hother, hotherOwn⟩
        obtain rfl := hs.eq_of_mem hmem hotherMem hin hotherIn
        exact ih _ hmem (hparts _ hmem) part other hpart hother number hown hotherOwn

end Held

/-- In each value that the step brings, what has one number is one and the same. -/
def WorkStep.Coherent : WorkStep → Prop
  | .setVariable _ (.new held) | .setOperation held => Held.Coherent [held]
  | .editVariable _ _ new | .editBody _ _ new => Held.Coherent [new]
  | _ => True

/-- A step that shares nothing brings no number twice. -/
theorem WorkStep.Unshared.coherent {work : WorkStep} (h : work.Unshared)
    (hname : ∀ name, work = .setOperation name → name.numbers = []) : work.Coherent := by
  cases work with
  | setVariable name given =>
    cases given with
    | new held => exact Held.coherent_of_nodup h
    | held => cases h
  | setOperation name => exact Held.coherent_of_nodup (hname name rfl ▸ List.nodup_nil)
  | editVariable | editBody => exact Held.coherent_of_nodup h
  | _ => trivial

namespace Workbench
open Held

/-- All that is held: the operation name, the variables and the kept bodies. -/
def contents (bench : Workbench) : List Held :=
  bench.operation :: (bench.bindings.map Prod.snd ++ bench.bodies)

/-- What has one number is one and the same, and no number is one that is to be given yet. -/
structure Coherent (bench : Workbench) : Prop where
  one : Held.Coherent bench.contents
  below : ∀ root ∈ bench.contents, ∀ number ∈ root.numbers, number < bench.fresh

variable {bench : Workbench} {root new : Held} {change : Change} {number : Nat}

theorem contents_amend (change : Change) (brought : Nat) :
    (bench.amend change brought).contents = bench.contents.map (Held.changed change) := by
  simp [contents, amend, Function.comp_def]

theorem mem_contents_of_binding {entry : Value × Held} (h : entry ∈ bench.bindings) :
    entry.2 ∈ bench.contents :=
  List.mem_cons_of_mem _ (List.mem_append_left _ (List.mem_map_of_mem h))

theorem coherent_opened (query : String) : Coherent (opened query) where
  one := coherent_of_nodup (List.nodup_nil : (Held.leaf .null).numbers.Nodup)
  below := by simp [contents, opened]

namespace Coherent

/-- A new value has no number that is held already. -/
theorem free (h : Coherent bench) (new : Held) : ∀ root ∈ bench.contents, ∀ number ∈ root.numbers,
    number ∉ (new.moved bench.fresh).numbers := fun root hroot number hnumber hin =>
  Nat.not_lt.mpr (mem_numbers_moved hin).1 (h.below root hroot number hnumber)

/-- A new value can be put beside what is held. -/
theorem append_moved (h : Coherent bench) (hnew : Held.Coherent [new]) :
    Held.Coherent (bench.contents ++ [new.moved bench.fresh]) :=
  h.one.append (hnew.moved _) fun root hroot number hnumber _ hmem =>
    List.mem_singleton.mp hmem ▸ h.free new root hroot number hnumber

/-- A bench that holds what was held already, and perhaps a new value. -/
theorem of_subset {after : Workbench} (h : Coherent bench) (hnew : Held.Coherent [new])
    (hsub : after.contents ⊆ bench.contents ++ [new.moved bench.fresh])
    (hfresh : after.fresh = bench.fresh + new.bound) : Coherent after := by
  refine ⟨(h.append_moved hnew).of_subset hsub, fun root hroot number hnumber => ?_⟩
  rw [hfresh]
  rcases List.mem_append.mp (hsub hroot) with hold | hmem
  · exact Nat.lt_add_right _ (h.below root hold number hnumber)
  · exact (mem_numbers_moved (List.mem_singleton.mp hmem ▸ hnumber)).2

/-- An edit of something that is held is one wherever it is held. -/
theorem amend (h : Coherent bench) (hroot : root ∈ bench.contents) (hnew : Held.Coherent [new])
    {path : List Value} (hedit : edit (new.moved bench.fresh) path root = .ok change) :
    Coherent (bench.amend change new.bound) := by
  obtain ⟨target, htarget, hown, hform, hinner⟩ := edit_cases hedit
  have hbrings := (of_edit hedit).brings
  refine ⟨?_, fun other hother number hnumber => ?_⟩
  · rw [contents_amend]
    exact h.one.changed ⟨root, hroot, htarget⟩ hown hform hinner (hnew.moved _) (h.free new)
  · rw [contents_amend] at hother
    obtain ⟨old, hold, rfl⟩ := List.mem_map.mp hother
    have hbelow : number < bench.fresh ∨ number < bench.fresh + new.bound := by
      rcases mem_numbers_changed hnumber with hn | ⟨-, hn⟩
      · exact .inl (h.below old hold number hn)
      rcases hbrings number hn with hn | hn
      · exact .inl (h.below root hroot number hn)
      · exact .inr (mem_numbers_moved hn).2
    exact hbelow.elim (fun hlt => Nat.lt_add_right _ hlt) id

theorem setBinding (h : Coherent bench) {name : Value} {given : Given}
    (hgiven : (WorkStep.setVariable name given).Coherent) {held : Held} {fresh : Nat}
    (htake : bench.take given = .ok (held, fresh)) :
    Coherent { bench with bindings := Entries.put name held bench.bindings, fresh } := by
  have hcontents : ∀ root ∈ contents
      { bench with bindings := Entries.put name held bench.bindings, fresh },
      root ∈ bench.contents ∨ root = held := by
    intro root hroot
    rcases List.mem_cons.mp hroot with rfl | hroot
    · exact .inl List.mem_cons_self
    rcases List.mem_append.mp hroot with hroot | hroot
    · exact (mem_of_put hroot).imp_left fun hold =>
        List.mem_cons_of_mem _ (List.mem_append_left _ hold)
    · exact .inl (List.mem_cons_of_mem _ (List.mem_append_right _ hroot))
  rcases take_eq_ok htake with ⟨new, rfl, rfl, rfl⟩ | ⟨rfl, hheld⟩
  · refine h.of_subset hgiven (fun root hroot => ?_) rfl
    rcases hcontents root hroot with hold | rfl
    · exact List.mem_append_left _ hold
    · exact List.mem_append_right _ (List.mem_singleton_self _)
  -- What is held already is inside the variables, so no part of it is new.
  have hparts : ∀ part : Held, part.Among (contents
      { bench with bindings := Entries.put name held bench.bindings }) → ∀ number,
      part.own? = some number → part.Among bench.contents := by
    rintro part ⟨root, hroot, hpart⟩ number hown
    rcases hcontents root hroot with hold | rfl
    · exact ⟨root, hold, hpart⟩
    rcases hheld with ⟨entry, hentry, hinside⟩ | ⟨l, rfl⟩
    · exact ⟨entry.2, mem_contents_of_binding hentry, hpart.trans hinside⟩
    · cases hpart with
      | whole => cases hown
      | inner hnone _ => cases hnone
  refine ⟨h.one.mono hparts, fun root hroot number hnumber => ?_⟩
  obtain ⟨part, hpart, hown⟩ := mem_numbers_iff_inside.mp hnumber
  obtain ⟨old, hold, hin⟩ := (hparts part ⟨root, hroot, hpart⟩ number hown).exists_mem hown
  exact h.below old hold number hin

theorem mem_numbers_copied (h : Coherent bench) (hnumber : number ∈ bench.copied.numbers) :
    bench.fresh < number ∧ number < 2 * bench.fresh + 2 :=
  Workbench.mem_numbers_copied (fun _ hentry => h.below _ (mem_contents_of_binding hentry)) hnumber

/-- The copy shares nothing with what is held, but inside it is shared what was shared. -/
theorem append_copied (h : Coherent bench) :
    Held.Coherent (bench.contents ++ [bench.copied]) := by
  have hvariables : Held.Coherent (.dict bench.fresh bench.bindings :: bench.contents) := by
    refine h.one.cons (fun number hown root hroot hnumber => ?_) fun part hpart => ?_
    · obtain rfl := Option.some.inj hown
      exact Nat.lt_irrefl _ (h.below root hroot _ hnumber)
    · exact .inl (List.mem_cons_of_mem _ (List.mem_append_left _ hpart))
  refine h.one.append ((hvariables.of_subset (by simp)).moved _) ?_
  intro root hroot number hnumber _ hmem hin
  have hlt := h.below root hroot number hnumber
  have hgt := (h.mem_numbers_copied (List.mem_singleton.mp hmem ▸ hin)).1
  omega

/-- A body has nothing inside but a copy, and what was there. -/
theorem mem_of_inner_newBody {part : Held} (hpart : part ∈ bench.newBody.inner) :
    part ∈ bench.contents ++ [bench.copied] ∨ part.numbers = [] := by
  rw [inner_newBody, List.mem_append, List.mem_pair] at hpart
  rcases hpart with (rfl | rfl) | hname
  · exact .inr rfl
  · exact .inl (List.mem_append_right _ (List.mem_singleton_self _))
  · split at hname
    · cases hname
    · obtain rfl := List.mem_singleton.mp hname
      exact .inl (List.mem_append_left _ List.mem_cons_self)

theorem keepBody (h : Coherent bench) : Coherent bench.keepBody := by
  have hbelow : ∀ root ∈ bench.contents ++ [bench.copied], ∀ number ∈ root.numbers,
      number ≠ bench.fresh ∧ number < 2 * bench.fresh + 2 := by
    intro root hroot number hnumber
    rcases List.mem_append.mp hroot with hold | hmem
    · have hlt := h.below root hold number hnumber
      omega
    · have hcopied := h.mem_numbers_copied (List.mem_singleton.mp hmem ▸ hnumber)
      omega
  have hbody : Held.Coherent (bench.newBody :: (bench.contents ++ [bench.copied])) := by
    refine h.append_copied.cons (fun number hown root hroot hnumber => ?_) fun part => mem_of_inner_newBody
    obtain rfl := Option.some.inj hown
    exact (hbelow root hroot _ hnumber).1 rfl
  have hsub : bench.keepBody.contents ⊆ bench.newBody :: (bench.contents ++ [bench.copied]) := by
    intro root hroot
    simp only [contents, Workbench.keepBody, List.mem_cons, List.mem_append] at hroot ⊢
    tauto
  refine ⟨hbody.of_subset hsub, fun root hroot number hnumber => ?_⟩
  have hlimit : number < 2 * bench.fresh + 2 := by
    rcases List.mem_cons.mp (hsub hroot) with rfl | hold
    · rcases mem_numbers.mp hnumber with hown | ⟨part, hpart, hin⟩
      · obtain rfl := Option.some.inj hown
        omega
      rcases mem_of_inner_newBody hpart with hold | hnone
      · exact (hbelow part hold number hin).2
      · rw [hnone] at hin
        cases hin
    · exact (hbelow root hold number hnumber).2
  exact hlimit

theorem next (h : Coherent bench) {work : WorkStep} (hwork : work.Coherent) :
    Coherent (bench.next work) := by
  cases work with
  | setVariable name given =>
    rw [next_setVariable]
    cases htake : bench.take given with
    | error fault => exact h
    | ok found =>
      dsimp only
      split
      · exact h.setBinding hwork htake
      · exact h
  | setHeader name value =>
    rw [next_setHeader]
    exact ⟨h.one, h.below⟩
  | setOperation name =>
    refine h.of_subset hwork (fun root hroot => ?_) rfl
    rcases List.mem_cons.mp hroot with rfl | hroot
    · exact List.mem_append_right _ (List.mem_singleton_self _)
    · exact List.mem_append_left _ (List.mem_cons_of_mem _ hroot)
  | makeBody =>
    rw [next_makeBody]
    split
    · exact h.keepBody
    · exact h
  | editBody index path new =>
    rcases bench.editBody_cases index path new with ⟨i, body, change, -, hi, hedit, hnext⟩ | ⟨hnext, -⟩
    · rw [hnext]
      exact h.amend (List.mem_cons_of_mem _ (List.mem_append_right _ (List.mem_of_getElem? hi)))
        hwork hedit
    · rwa [hnext]
  | readBody index => rwa [next_readBody]
  | editVariable name path new =>
    rw [next_editVariable]
    cases hchange : bench.variableChange name path new with
    | error fault => exact h
    | ok change =>
      obtain ⟨held, hheld, hedit⟩ := variableChange_eq_ok.mp hchange
      obtain ⟨entry, hentry, rfl⟩ := List.mem_map.mp (mem_of_binding hheld)
      exact h.amend (mem_contents_of_binding hentry) hwork hedit
  | «show» => rwa [next_show]

end Coherent

/-- Whatever is done with a new draft, what has one number is one and the same. -/
theorem coherent_run (query : String) {steps : List WorkStep}
    (hsteps : ∀ work ∈ steps, work.Coherent) : Coherent ((opened query).run steps) := by
  induction steps using List.reverseRecOn with
  | nil => exact coherent_opened query
  | append_singleton steps work ih =>
    rw [run_concat]
    exact (ih fun work hwork => hsteps work (List.mem_append_left _ hwork)).next
      (hsteps work (by simp))

end Workbench
end SchemaScribe
