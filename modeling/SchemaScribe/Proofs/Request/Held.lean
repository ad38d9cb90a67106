import Mathlib.Data.List.Pairwise
import SchemaScribe.Proofs.Introspection.Success
import SchemaScribe.Proofs.Value.Keys
import SchemaScribe.Request.Held

/-! # Numbers and values of what is held

What a copy, a change and a path do to the numbers in what is held, and to the value that it has.
-/
namespace SchemaScribe
namespace Held
open Success

/-! ## One layer at a time -/

section Fold
variable {α : Type} {leaf : Leaf → α} {tuple : List α → α} {list : Nat → List α → α}
  {dict : Nat → List (Value × α) → α}

theorem foldItems_eq (items : List Held) :
    foldItems leaf tuple list dict items = items.map (fold leaf tuple list dict) := by
  induction items with
  | nil => rfl
  | cons item rest ih => rw [foldItems, ih, List.map_cons]

theorem foldEntries_eq (entries : List (Value × Held)) :
    foldEntries leaf tuple list dict entries =
      entries.map fun entry => (entry.1, fold leaf tuple list dict entry.2) := by
  induction entries with
  | nil => rfl
  | cons entry rest ih => rw [foldEntries, ih, List.map_cons]

end Fold

section Layers
variable (number : Nat) (items : List Held) (entries : List (Value × Held))

@[simp] theorem value_leaf (l : Leaf) : (leaf l).value = l.value := rfl

@[simp] theorem value_tuple : (tuple items).value = .tuple (items.map value) :=
  congrArg Value.tuple (foldItems_eq items)

@[simp] theorem value_list : (list number items).value = .list (items.map value) :=
  congrArg Value.list (foldItems_eq items)

@[simp] theorem value_dict : (dict number entries).value = .dict (values entries) :=
  congrArg Value.dict (foldEntries_eq entries)

@[simp] theorem numbers_leaf (l : Leaf) : (leaf l).numbers = [] := rfl

@[simp] theorem numbers_tuple : (tuple items).numbers = items.flatMap numbers := by
  rw [List.flatMap_def]
  exact congrArg List.flatten (foldItems_eq items)

@[simp] theorem numbers_list : (list number items).numbers = number :: items.flatMap numbers := by
  rw [List.flatMap_def]
  exact congrArg (fun parts => number :: parts.flatten) (foldItems_eq items)

@[simp] theorem numbers_dict : (dict number entries).numbers =
    number :: entries.flatMap fun entry => entry.2.numbers := by
  have hparts : (entries.map fun entry => (entry.1, entry.2.numbers)).map Prod.snd =
      entries.map fun entry => entry.2.numbers := by
    rw [List.map_map]
    rfl
  rw [List.flatMap_def, ← hparts]
  exact congrArg (fun parts => number :: (parts.map Prod.snd).flatten) (foldEntries_eq entries)

@[simp] theorem moved_leaf (places : Nat) (l : Leaf) : (leaf l).moved places = leaf l := rfl

@[simp] theorem moved_tuple (places : Nat) :
    (tuple items).moved places = tuple (items.map (moved places)) :=
  congrArg tuple (foldItems_eq items)

@[simp] theorem moved_list (places : Nat) :
    (list number items).moved places = list (number + places) (items.map (moved places)) :=
  congrArg (list (number + places)) (foldItems_eq items)

@[simp] theorem moved_dict (places : Nat) : (dict number entries).moved places =
    dict (number + places) (entries.map fun entry => (entry.1, entry.2.moved places)) :=
  congrArg (dict (number + places)) (foldEntries_eq entries)

@[simp] theorem changed_leaf (change : Change) (l : Leaf) : (leaf l).changed change = leaf l := rfl

@[simp] theorem changed_tuple (change : Change) :
    (tuple items).changed change = tuple (items.map (changed change)) :=
  congrArg tuple (foldItems_eq items)

theorem changed_list (change : Change) : (list number items).changed change =
    if number = change.number then change.form else list number (items.map (changed change)) :=
  congrArg (fun items => if number = change.number then change.form else list number items)
    (foldItems_eq items)

theorem changed_dict (change : Change) : (dict number entries).changed change =
    if number = change.number then change.form
    else dict number (entries.map fun entry => (entry.1, entry.2.changed change)) :=
  congrArg (fun entries => if number = change.number then change.form else dict number entries)
    (foldEntries_eq entries)

end Layers

/-- The number of a list or a dictionary. -/
def own? : Held → Option Nat
  | .list number _ | .dict number _ => some number
  | _ => none

/-- What stands in a sequence or a dictionary. -/
def inner : Held → List Held
  | .leaf _ => []
  | .tuple items | .list _ items => items
  | .dict _ entries => entries.map Prod.snd

theorem sizeOf_lt_of_mem_inner {held part : Held} (h : part ∈ held.inner) :
    sizeOf part < sizeOf held := by
  cases held with
  | leaf l => cases h
  | tuple items | list number items =>
    have hlt := List.sizeOf_lt_of_mem (show part ∈ items from h)
    simp only [tuple.sizeOf_spec, list.sizeOf_spec]
    omega
  | dict number entries =>
    obtain ⟨⟨key, held⟩, hentry, rfl⟩ := List.mem_map.mp h
    have hlt := List.sizeOf_lt_of_mem hentry
    simp only [Prod.mk.sizeOf_spec, dict.sizeOf_spec] at hlt ⊢
    omega

/-- Induction on what is held, with the hypothesis for all that stands in it. -/
@[elab_as_elim]
theorem induction {motive : Held → Prop}
    (step : ∀ held, (∀ part ∈ held.inner, motive part) → motive held) (held : Held) :
    motive held :=
  step held fun part _ => induction step part
termination_by sizeOf held
decreasing_by exact sizeOf_lt_of_mem_inner ‹_›

/-- What stands somewhere in what is held, or is all of it. -/
inductive Inside (part : Held) : Held → Prop
  | whole : Inside part part
  | inner {between held : Held} : between ∈ held.inner → Inside part between → Inside part held

theorem Inside.trans {a b c : Held} (h : a.Inside b) (hb : b.Inside c) : a.Inside c := by
  induction hb with
  | whole => exact h
  | inner hpart _ ih => exact .inner hpart ih

theorem Inside.sizeOf_le {part held : Held} (h : part.Inside held) : sizeOf part ≤ sizeOf held := by
  induction h with
  | whole => exact le_rfl
  | inner hpart _ ih => exact ih.trans (sizeOf_lt_of_mem_inner hpart).le

theorem mem_numbers {held : Held} {number : Nat} : number ∈ held.numbers ↔
    held.own? = some number ∨ ∃ part ∈ held.inner, number ∈ part.numbers := by
  cases held with
  | leaf | tuple | list => simp [own?, inner, eq_comm]
  | dict own entries =>
    rw [numbers_dict, List.mem_cons, List.mem_flatMap]
    simp only [own?, inner, List.mem_map, exists_exists_and_eq_and, Option.some.injEq,
      eq_comm (a := own)]

/-- The numbers are those of what stands inside. -/
theorem mem_numbers_iff_inside {held : Held} {number : Nat} : number ∈ held.numbers ↔
    ∃ part : Held, part.Inside held ∧ part.own? = some number := by
  induction held using Held.induction with
  | step held ih =>
    rw [mem_numbers]
    constructor
    · rintro (hown | ⟨part, hpart, hnumber⟩)
      · exact ⟨held, .whole, hown⟩
      · obtain ⟨found, hfound, hown⟩ := (ih part hpart).mp hnumber
        exact ⟨found, .inner hpart hfound, hown⟩
    · rintro ⟨found, hfound, hown⟩
      cases hfound with
      | whole => exact .inl hown
      | inner hpart hfound => exact .inr ⟨_, hpart, (ih _ hpart).mpr ⟨found, hfound, hown⟩⟩

theorem Inside.mem_numbers {part held : Held} (h : part.Inside held) {number : Nat}
    (hnumber : number ∈ part.numbers) : number ∈ held.numbers := by
  obtain ⟨found, hfound, hown⟩ := mem_numbers_iff_inside.mp hnumber
  exact mem_numbers_iff_inside.mpr ⟨found, hfound.trans h, hown⟩

/-! ## Copies -/

theorem value_moved (places : Nat) (held : Held) : (held.moved places).value = held.value := by
  induction held using Held.induction with
  | step held ih =>
    cases held with
    | leaf l => rfl
    | tuple items | list number items =>
      have hitems : items.map (fun item => (item.moved places).value) = items.map value :=
        List.map_congr_left ih
      simp [Function.comp_def, hitems]
    | dict number entries =>
      have hentries : ∀ entry ∈ entries, (entry.1, (entry.2.moved places).value) =
          (entry.1, entry.2.value) := fun entry hentry => by
        rw [ih entry.2 (List.mem_map_of_mem hentry)]
      simp [values, Function.comp_def, List.map_congr_left hentries]

theorem numbers_moved (places : Nat) (held : Held) :
    (held.moved places).numbers = held.numbers.map (· + places) := by
  induction held using Held.induction with
  | step held ih =>
    cases held with
    | leaf l => rfl
    | tuple items | list number items =>
      have hitems : items.flatMap (fun item => (item.moved places).numbers) =
          items.flatMap fun item => item.numbers.map (· + places) := List.flatMap_congr ih
      simp [List.flatMap_map, List.map_flatMap, hitems]
    | dict number entries =>
      have hentries : ∀ entry ∈ entries,
          (entry.2.moved places).numbers = entry.2.numbers.map (· + places) :=
        fun entry hentry => ih entry.2 (List.mem_map_of_mem hentry)
      simp [List.flatMap_map, List.map_flatMap, List.flatMap_congr hentries]

theorem lt_bound {held : Held} {number : Nat} (h : number ∈ held.numbers) : number < held.bound := by
  rw [bound]
  generalize held.numbers = numbers at h ⊢
  induction numbers with
  | nil => cases h
  | cons first rest ih =>
    rw [List.foldr_cons, lt_max_iff]
    rcases List.mem_cons.mp h with rfl | hrest
    · exact .inl (Nat.lt_succ_self _)
    · exact .inr (ih hrest)

theorem bound_le {held : Held} {limit : Nat} (h : ∀ number ∈ held.numbers, number < limit) :
    held.bound ≤ limit := by
  rw [bound]
  generalize held.numbers = numbers at h ⊢
  induction numbers with
  | nil => exact Nat.zero_le _
  | cons first rest ih =>
    obtain ⟨hfirst, hrest⟩ := List.forall_mem_cons.mp h
    exact max_le hfirst (ih hrest)

/-- The numbers of a copy are some that come behind so many, and no more of them than there were. -/
theorem mem_numbers_moved {places number : Nat} {held : Held}
    (h : number ∈ (held.moved places).numbers) :
    places ≤ number ∧ number < places + held.bound := by
  rw [numbers_moved] at h
  obtain ⟨old, hold, rfl⟩ := List.mem_map.mp h
  have hlt := lt_bound hold
  omega

/-! ## Changes -/

variable {change : Change} {held new : Held}

/-- A change puts its form in the place of what it changes, and goes on inside everything else. -/
theorem changed_cases (change : Change) (held : Held) :
    held.own? = some change.number ∧ held.changed change = change.form ∨
      held.own? ≠ some change.number ∧ (held.changed change).own? = held.own? ∧
        (held.changed change).inner = held.inner.map (changed change) := by
  cases held with
  | leaf | tuple => simp [own?, inner]
  | list number items =>
    rw [changed_list]
    by_cases hown : number = change.number
    · simp [own?, hown]
    · simp [own?, inner, hown]
  | dict number entries =>
    rw [changed_dict]
    by_cases hown : number = change.number
    · simp [own?, hown]
    · simp [own?, inner, hown, Function.comp_def]

theorem changed_of_not_mem (h : change.number ∉ held.numbers) : held.changed change = held := by
  induction held using Held.induction with
  | step held ih =>
    rw [mem_numbers] at h
    push Not at h
    have hinner : ∀ part ∈ held.inner, part.changed change = part := fun part hpart =>
      ih part hpart (h.2 part hpart)
    cases held with
    | leaf l => rfl
    | tuple items =>
      have hitems : items.map (changed change) = items.map id := List.map_congr_left hinner
      rw [changed_tuple, hitems, List.map_id]
    | list number items =>
      have hitems : items.map (changed change) = items.map id := List.map_congr_left hinner
      rw [changed_list, if_neg (by simpa [own?] using h.1), hitems, List.map_id]
    | dict number entries =>
      have hentries : ∀ entry ∈ entries, (entry.1, entry.2.changed change) = entry :=
        fun entry hentry => by rw [hinner entry.2 (List.mem_map_of_mem hentry)]
      rw [changed_dict, if_neg (by simpa [own?] using h.1), List.map_congr_left hentries,
        List.map_id']

theorem mem_numbers_changed {number : Nat} (h : number ∈ (held.changed change).numbers) :
    number ∈ held.numbers ∨ change.number ∈ held.numbers ∧ number ∈ change.form.numbers := by
  induction held using Held.induction with
  | step held ih =>
    rcases changed_cases change held with ⟨hown, heq⟩ | ⟨-, hown, hinner⟩
    · exact .inr ⟨mem_numbers.mpr (.inl hown), heq ▸ h⟩
    rw [mem_numbers, hown, hinner] at h
    rcases h with h | ⟨_, hchanged, h⟩
    · exact .inl (mem_numbers.mpr (.inl h))
    obtain ⟨part, hpart, rfl⟩ := List.mem_map.mp hchanged
    rcases ih part hpart h with hold | ⟨hchange, hnew⟩
    · exact .inl (mem_numbers.mpr (.inr ⟨part, hpart, hold⟩))
    · exact .inr ⟨mem_numbers.mpr (.inr ⟨part, hpart, hchange⟩), hnew⟩

/-- No two of them have a number in common. -/
def Separate (roots : List Held) : Prop :=
  roots.Pairwise fun a b => ∀ number ∈ a.numbers, number ∉ b.numbers

theorem Separate.eq_of_mem {roots : List Held} (h : Separate roots) {a b : Held} (ha : a ∈ roots)
    (hb : b ∈ roots) {number : Nat} (hna : number ∈ a.numbers) (hnb : number ∈ b.numbers) :
    a = b := by
  by_contra hne
  have : Std.Symm fun a b : Held => ∀ number ∈ a.numbers, number ∉ b.numbers :=
    ⟨fun a b hab number hb ha => hab number ha hb⟩
  exact h.forall ha hb hne number hna hnb

/-- A change in one of several roots that brings nothing from another one keeps them separate. -/
theorem Separate.changed {roots : List Held} (h : Separate roots) {root : Held}
    (hroot : root ∈ roots) (hwithin : change.number ∈ root.numbers) {Free : Nat → Prop}
    (hbrings : ∀ number ∈ change.form.numbers, number ∈ root.numbers ∨ Free number)
    (hfree : ∀ other ∈ roots, ∀ number ∈ other.numbers, ¬ Free number) :
    Separate (roots.map (Held.changed change)) := by
  -- What is brought into one root was in no other one, as the change is in one root only.
  have hnot : ∀ {a b : Held}, a ∈ roots → b ∈ roots →
      (∀ number ∈ a.numbers, number ∉ b.numbers) → ∀ number ∈ a.numbers,
        ¬ (change.number ∈ b.numbers ∧ number ∈ change.form.numbers) := by
    rintro a b ha hb hab number hna ⟨hcb, hform⟩
    rcases hbrings number hform with hnroot | hn
    · obtain rfl := h.eq_of_mem hroot ha hnroot hna
      exact hab _ hwithin hcb
    · exact hfree a ha number hna hn
  rw [Separate, List.pairwise_map]
  refine List.Pairwise.imp_of_mem (fun {a b} ha hb hab number hna hnb => ?_) h
  rcases mem_numbers_changed hna with hna | ⟨hca, hna⟩
  · rcases mem_numbers_changed hnb with hnb | hnb
    · exact hab number hna hnb
    · exact hnot ha hb hab number hna hnb
  · rcases mem_numbers_changed hnb with hnb | ⟨hcb, -⟩
    · exact hnot hb ha (fun number hb ha => hab number ha hb) number hnb ⟨hca, hna⟩
    · exact hab _ hca hcb

/-! ## Paths -/

section Entries
variable {α : Type} {entries : List (Value × α)} {key : Value} {a : α}

theorem getElem?_of_itemAt {sequence step : Value} {items : List α} {i : Nat}
    (h : Value.itemAt sequence items step = .ok (i, a)) : items[i]? = some a := by
  unfold Value.itemAt at h
  split at h
  · cases h
  split at h
  next hfound =>
    cases h
    obtain ⟨position, -, hitem⟩ := Option.bind_eq_some_iff.mp hfound
    obtain ⟨item, hitem, heq⟩ := Option.map_eq_some_iff.mp hitem
    cases heq
    exact hitem
  · cases h

theorem mem_of_value? (h : Entries.value? entries key = some a) : a ∈ entries.map Prod.snd := by
  obtain ⟨entry, hentry, rfl⟩ := Option.map_eq_some_iff.mp h
  exact List.mem_map_of_mem (List.mem_of_find?_eq_some hentry)

theorem mem_of_put {b : α} (h : b ∈ (Entries.put key a entries).map Prod.snd) :
    b ∈ entries.map Prod.snd ∨ b = a := by
  induction entries with
  | nil => exact .inr (by simpa using h)
  | cons first rest ih =>
    rw [Entries.put] at h
    split at h <;> simp only [List.map_cons, List.mem_cons] at h ⊢
    · exact h.symm.imp_left .inr
    · rcases h with rfl | h
      · exact .inl (.inl rfl)
      · exact (ih h).imp_left .inr

end Entries

/-- What stands at a step is one of the parts, or it has no parts itself. -/
theorem part_cases {step : Value} {found : Held} (h : held.part step = .ok found) :
    found ∈ held.inner ∨ ∃ l, found = .leaf l := by
  cases held with
  | leaf l =>
    rw [part] at h
    split at h
    · obtain ⟨item, -, rfl⟩ := map_eq_ok.mp h
      exact .inr ⟨_, rfl⟩
    · cases h
  | tuple items | list own items =>
    obtain ⟨⟨i, item⟩, hitem, rfl⟩ := map_eq_ok.mp h
    exact .inl (List.mem_of_getElem? (getElem?_of_itemAt hitem))
  | dict own entries =>
    rw [part] at h
    split at h
    · cases h
    split at h
    next hfound =>
      cases h
      exact .inl (mem_of_value? hfound)
    · cases h

/-- What stands at the end of a path is inside, or it is a leaf. -/
theorem path_cases {path : List Value} {found : Held}
    (h : path.foldlM (fun held step => held.part step) held = .ok found) :
    found.Inside held ∨ ∃ l, found = .leaf l := by
  induction path generalizing held with
  | nil =>
    cases h
    exact .inl .whole
  | cons step path ih =>
    rw [List.foldlM_cons] at h
    obtain ⟨part, hpart, h⟩ := bind_eq_ok.mp h
    rcases ih h, part_cases hpart with ⟨hfound | hleaf, hinner | ⟨l, rfl⟩⟩
    · exact .inl (.inner hinner hfound)
    · cases hfound with
      | whole => exact .inr ⟨l, rfl⟩
      | inner hnone _ => cases hnone
    · exact .inr hleaf
    · exact .inr hleaf

theorem assign_cases {step : Value} (h : assign step new held = .ok change) :
    held.own? = some change.number ∧ change.form.own? = held.own? ∧
      ∀ part ∈ change.form.inner, part ∈ held.inner ∨ part = new := by
  cases held with
  | leaf | tuple => cases h
  | list number items =>
    rw [assign] at h
    split at h
    · cases h
    split at h
    next i _ =>
      cases h
      exact ⟨rfl, rfl, fun part hpart => List.mem_or_eq_of_mem_set hpart⟩
    · cases h
  | dict number entries =>
    rw [assign] at h
    split at h
    · cases h
      exact ⟨rfl, rfl, fun part hpart => mem_of_put hpart⟩
    · cases h

/-- An edit of a leaf makes no change. -/
theorem edit_leaf (new : Held) (path : List Value) (l : Leaf) (change : Change) :
    edit new path (leaf l) ≠ .ok change := by
  induction path generalizing l with
  | nil => exact nofun
  | cons step path ih =>
    cases path with
    | nil => exact nofun
    | cons next path =>
      intro h
      obtain ⟨found, hfound, h⟩ := bind_eq_ok.mp h
      rcases part_cases hfound with hinner | ⟨inner, rfl⟩
      · cases hinner
      · exact ih inner h

/-- An edit changes one list or dictionary inside, whose parts are then those it had and what is
new. -/
theorem edit_cases {path : List Value} (h : edit new path held = .ok change) :
    ∃ target : Held, target.Inside held ∧ target.own? = some change.number ∧
      change.form.own? = target.own? ∧
      ∀ part ∈ change.form.inner, part ∈ target.inner ∨ part = new := by
  induction path generalizing held with
  | nil => cases h
  | cons step path ih =>
    cases path with
    | nil => exact ⟨held, .whole, assign_cases h⟩
    | cons next path =>
      obtain ⟨part, hpart, h⟩ := bind_eq_ok.mp h
      rcases part_cases hpart with hinner | ⟨l, rfl⟩
      · obtain ⟨target, htarget, hcases⟩ := ih h
        exact ⟨target, .inner hinner htarget, hcases⟩
      · exact absurd h (edit_leaf new _ l change)

/-- A change of something in what is held, which leaves it with what it had and what is new. -/
structure Change.Of (change : Change) (held new : Held) : Prop where
  within : change.number ∈ held.numbers
  brings : ∀ number ∈ change.form.numbers, number ∈ held.numbers ∨ number ∈ new.numbers

theorem of_edit {path : List Value} (h : edit new path held = .ok change) : change.Of held new := by
  obtain ⟨target, htarget, hown, hform, hinner⟩ := edit_cases h
  have hwithin : change.number ∈ held.numbers := mem_numbers_iff_inside.mpr ⟨target, htarget, hown⟩
  refine ⟨hwithin, fun number hnumber => ?_⟩
  rw [mem_numbers, hform, hown] at hnumber
  rcases hnumber with hnumber | ⟨part, hpart, hnumber⟩
  · exact .inl (Option.some.inj hnumber ▸ hwithin)
  rcases hinner part hpart with hold | rfl
  · exact .inl (htarget.mem_numbers (mem_numbers.mpr (.inr ⟨part, hold, hnumber⟩)))
  · exact .inr hnumber

end Held
end SchemaScribe
