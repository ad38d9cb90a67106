import Mathlib.Data.List.Nodup
import SchemaScribe.Proofs.Request.Held

/-! # Changes of what is not shared

Where every list and every dictionary in what is held has a number of its own, a change at a path
changes the value at that path and nothing else.
-/
namespace SchemaScribe
namespace Held
open Success

variable {change : Change} {held new : Held} {items : List Held} {entries : List (Value × Held)}
  {step : Value} {i : Nat}

/-! ## Values and their parts -/

/-- An item of a sequence of values is the value of the item there. -/
theorem itemAt_map {α β : Type} (f : α → β) (sequence step : Value) (items : List α) :
    Value.itemAt sequence (items.map f) step =
      (Value.itemAt sequence items step).map fun found => (found.1, f found.2) := by
  unfold Value.itemAt
  cases step.index with
  | error fault => rfl
  | ok index =>
    rw [List.length_map]
    dsimp only
    cases Value.position? items.length index with
    | none => rfl
    | some i =>
      rw [Option.bind_some, Option.bind_some, List.getElem?_map]
      cases items[i]? <;> rfl

theorem value?_values (key : Value) :
    Entries.value? (values entries) key = (Entries.value? entries key).map value := by
  induction entries with
  | nil => rfl
  | cons entry rest ih =>
    rw [values, List.map_cons, Entries.value?_cons, Entries.value?_cons, ← values, ih]
    split <;> rfl

theorem values_put (key : Value) (held : Held) :
    values (Entries.put key held entries) = Entries.put key held.value (values entries) := by
  induction entries with
  | nil => rfl
  | cons entry rest ih =>
    rw [Entries.put, values, values, List.map_cons, Entries.put]
    split
    · rfl
    · rw [List.map_cons, ← values, ih]
      rfl

/-! ## Edits of what has no parts -/

theorem edit_plain (new : Value) (path : List Value) {v changed : Value} (hv : v.isPlain = true) :
    Value.edit new path v ≠ .ok changed := by
  intro h
  match path with
  | [] => cases h
  | [step] => cases v <;> first | cases h | cases hv
  | step :: next :: path =>
    cases v with
    | list | tuple | dict => cases hv
    | str | torn | bytes =>
      obtain ⟨_, -, h⟩ := bind_eq_ok.mp h
      obtain ⟨_, -, h⟩ := bind_eq_ok.mp h
      cases h
    | _ => cases h

/-! ## Changes of one part -/

theorem separate_of_nodup (h : (items.flatMap numbers).Nodup) : Separate items :=
  (List.nodup_flatMap.mp h).2.imp fun hab _ ha hb => hab ha hb

theorem map_changed_of_not_mem (h : ∀ item ∈ items, change.number ∉ item.numbers) :
    items.map (changed change) = items := by
  rw [List.map_congr_left fun item hitem => changed_of_not_mem (h item hitem), List.map_id']

/-- A change inside one item leaves every other one. -/
theorem map_changed_eq_set (hs : Separate items) (hi : items[i]? = some held)
    (hc : change.number ∈ held.numbers) :
    items.map (changed change) = items.set i (held.changed change) := by
  induction items generalizing i with
  | nil => simp at hi
  | cons first rest ih =>
    obtain ⟨hfirst, hrest⟩ := List.pairwise_cons.mp hs
    cases i with
    | zero =>
      obtain rfl := Option.some.inj hi
      rw [List.map_cons, List.set_cons_zero,
        map_changed_of_not_mem fun item hitem hin => hfirst item hitem _ hc hin]
    | succ i =>
      have hin : held ∈ rest := List.mem_of_getElem? hi
      rw [List.map_cons, List.set_cons_succ, ih hrest hi,
        changed_of_not_mem fun hf => hfirst held hin _ hf hc]

theorem map_changed_eq_put (hs : Separate (entries.map Prod.snd))
    (hv : Entries.value? entries step = some held) (hc : change.number ∈ held.numbers) :
    entries.map (fun entry => (entry.1, entry.2.changed change)) =
      Entries.put step (held.changed change) entries := by
  induction entries with
  | nil => cases hv
  | cons first rest ih =>
    obtain ⟨hfirst, hrest⟩ := List.pairwise_cons.mp hs
    rw [Entries.value?_cons] at hv
    rw [List.map_cons, Entries.put]
    split at hv
    next hsame =>
      obtain rfl := Option.some.inj hv
      have hkept : ∀ entry ∈ rest, (entry.1, entry.2.changed change) = entry := fun entry hentry => by
        rw [changed_of_not_mem fun hin => hfirst entry.2 (List.mem_map_of_mem hentry) _ hc hin]
      rw [if_pos hsame, List.map_congr_left hkept, List.map_id']
    next hother =>
      have hin := mem_of_value? hv
      rw [if_neg hother, ih hrest hv, changed_of_not_mem fun hf => hfirst held hin _ hf hc]

/-! ## Edits -/

/-- What an edit makes of a value, told of what is held: it fails for both, or the value of what is
held after the change is the value after the edit. -/
def Mirrors (new : Held) (path : List Value) (held : Held) : Prop :=
  ∀ v, Value.edit new.value path held.value = .ok v ↔
    ∃ change, edit new path held = .ok change ∧ (held.changed change).value = v

/-- The value after an edit, which changes nothing if it fails. -/
theorem Mirrors.value_edit {path : List Value} (h : Mirrors new path held) :
    (match edit new path held with
      | .ok change => held.changed change
      | .error _ => held).value =
      (Value.edit new.value path held.value).toOption.getD held.value := by
  cases hedit : edit new path held with
  | ok change => rw [(h _).mpr ⟨change, hedit, rfl⟩, Except.toOption, Option.getD_some]
  | error fault =>
    cases hvalue : Value.edit new.value path held.value with
    | error fault => rfl
    | ok v =>
      obtain ⟨change, hok, -⟩ := (h v).mp hvalue
      cases hedit.symm.trans hok

theorem changed_of_own (h : held.own? = some change.number) : held.changed change = change.form := by
  rcases changed_cases change held with ⟨-, heq⟩ | ⟨hne, -⟩
  · exact heq
  · exact absurd h hne

theorem mirrors_leaf (new : Held) (path : List Value) (l : Leaf) : Mirrors new path (leaf l) := by
  intro v
  refine iff_of_false (edit_plain new.value path l.plain) ?_
  rintro ⟨change, hchange, -⟩
  exact edit_leaf new path l change hchange

/-- An edit at a single step. -/
theorem mirrors_assign (step : Value) (new held : Held) : Mirrors new [step] held := by
  intro v
  have hassign : (∃ change, assign step new held = .ok change ∧ (held.changed change).value = v) ↔
      ∃ change, assign step new held = .ok change ∧ change.form.value = v := by
    refine exists_congr fun change => and_congr_right fun hchange => ?_
    rw [changed_of_own (assign_cases hchange).1]
  refine Iff.trans ?_ hassign.symm
  cases held with
  | leaf l => exact (mirrors_leaf new [step] l v).trans (by simp [edit, assign])
  | tuple items => simp [Value.edit, Value.assign, assign]
  | list number items =>
    rw [value_list, Value.edit, Value.assign, assign]
    cases step.index with
    | error fault => simp
    | ok index =>
      rw [List.length_map]
      dsimp only
      cases Value.position? items.length index with
      | none => simp
      | some i => simp
  | dict number entries =>
    rw [value_dict, Value.edit, Value.assign, assign]
    split
    · simp [values_put]
    · simp

section Further
variable {next : Value} {path : List Value}

/-- An edit that goes on inside an item of a sequence. -/
theorem mirrors_items (hn : (items.flatMap numbers).Nodup)
    (ih : ∀ item ∈ items, Mirrors new (next :: path) item) (sequence step : Value)
    (vs : List Value) :
    (∃ i w w', Value.itemAt sequence (items.map value) step = .ok (i, w) ∧
        Value.edit new.value (next :: path) w = .ok w' ∧ (items.map value).set i w' = vs) ↔
      ∃ change, (∃ i item, Value.itemAt sequence items step = .ok (i, item) ∧
        edit new (next :: path) item = .ok change) ∧
          (items.map (changed change)).map value = vs := by
  have hset : ∀ {i item change}, Value.itemAt sequence items step = .ok (i, item) →
      edit new (next :: path) item = .ok change → (items.map (changed change)).map value =
        (items.map value).set i (item.changed change).value := by
    intro i item change hitem hchange
    rw [map_changed_eq_set (separate_of_nodup hn) (getElem?_of_itemAt hitem)
      (of_edit hchange).within, List.map_set]
  rw [itemAt_map]
  constructor
  · rintro ⟨i, w, w', hw, hedit, rfl⟩
    obtain ⟨⟨j, item⟩, hitem, heq⟩ := map_eq_ok.mp hw
    cases heq
    have hin : item ∈ items := List.mem_of_getElem? (getElem?_of_itemAt hitem)
    obtain ⟨change, hchange, rfl⟩ := (ih item hin w').mp hedit
    exact ⟨change, ⟨_, item, hitem, hchange⟩, hset hitem hchange⟩
  · rintro ⟨change, ⟨i, item, hitem, hchange⟩, rfl⟩
    have hin : item ∈ items := List.mem_of_getElem? (getElem?_of_itemAt hitem)
    exact ⟨i, item.value, _, map_eq_ok.mpr ⟨(i, item), hitem, rfl⟩,
      (ih item hin _).mpr ⟨change, hchange, rfl⟩, (hset hitem hchange).symm⟩

/-- An edit that goes on inside what stands under a key. -/
theorem mirrors_entries (hn : (entries.flatMap fun entry => entry.2.numbers).Nodup)
    (ih : ∀ entry ∈ entries, Mirrors new (next :: path) entry.2) (step : Value) (vs : Entries) :
    (∃ w w', Entries.value? (values entries) step = some w ∧
        Value.edit new.value (next :: path) w = .ok w' ∧
          Entries.put step w' (values entries) = vs) ↔
      ∃ change, (∃ inner, Entries.value? entries step = some inner ∧
        edit new (next :: path) inner = .ok change) ∧
          values (entries.map fun entry => (entry.1, entry.2.changed change)) = vs := by
  have hsep : Separate (entries.map Prod.snd) := by
    refine separate_of_nodup ?_
    rwa [List.flatMap_map]
  have hput : ∀ {inner change}, Entries.value? entries step = some inner →
      edit new (next :: path) inner = .ok change →
        values (entries.map fun entry => (entry.1, entry.2.changed change)) =
          Entries.put step (inner.changed change).value (values entries) := by
    intro inner change hinner hchange
    rw [map_changed_eq_put hsep hinner (of_edit hchange).within, values_put]
  have hih : ∀ {inner}, Entries.value? entries step = some inner →
      Mirrors new (next :: path) inner := by
    intro inner hinner
    obtain ⟨entry, hentry, rfl⟩ := List.mem_map.mp (mem_of_value? hinner)
    exact ih entry hentry
  rw [value?_values]
  constructor
  · rintro ⟨w, w', hw, hedit, rfl⟩
    obtain ⟨inner, hinner, rfl⟩ := Option.map_eq_some_iff.mp hw
    obtain ⟨change, hchange, rfl⟩ := (hih hinner w').mp hedit
    exact ⟨change, ⟨inner, hinner, hchange⟩, hput hinner hchange⟩
  · rintro ⟨change, ⟨inner, hinner, hchange⟩, rfl⟩
    exact ⟨inner.value, _, Option.map_eq_some_iff.mpr ⟨inner, hinner, rfl⟩,
      (hih hinner _).mpr ⟨change, hchange, rfl⟩, (hput hinner hchange).symm⟩

end Further

/-! ## Edits step by step -/

section Cons
variable {next v : Value} {path : List Value} {vs : List Value} {es : Entries}

theorem edit_cons : edit new (step :: next :: path) held = .ok change ↔
    ∃ found, held.part step = .ok found ∧ edit new (next :: path) found = .ok change :=
  bind_eq_ok

theorem part_items {sequence : Value} {found : Held} :
    (Value.itemAt sequence items step).map Prod.snd = .ok found ↔
      ∃ i, Value.itemAt sequence items step = .ok (i, found) := by
  rw [map_eq_ok]
  constructor
  · rintro ⟨⟨i, item⟩, hitem, rfl⟩
    exact ⟨i, hitem⟩
  · rintro ⟨i, hitem⟩
    exact ⟨_, hitem, rfl⟩

theorem part_tuple {found : Held} : (tuple items).part step = .ok found ↔
    ∃ i, Value.itemAt (.tuple (items.map value)) items step = .ok (i, found) := by
  rw [part, value_tuple, part_items]

theorem part_list {number : Nat} {found : Held} : (list number items).part step = .ok found ↔
    ∃ i, Value.itemAt (.list (items.map value)) items step = .ok (i, found) := by
  rw [part, value_list, part_items]

theorem edit_tuple_value {new : Value} :
    Value.edit new (step :: next :: path) (.tuple vs) = .ok v ↔
      ∃ i w w', Value.itemAt (.tuple vs) vs step = .ok (i, w) ∧
        Value.edit new (next :: path) w = .ok w' ∧ .tuple (vs.set i w') = v := by
  rw [Value.edit, bind_eq_ok]
  simp only [Prod.exists, bind_eq_ok, pure_eq_ok, exists_and_left]

theorem edit_list_value {new : Value} :
    Value.edit new (step :: next :: path) (.list vs) = .ok v ↔
      ∃ i w w', Value.itemAt (.list vs) vs step = .ok (i, w) ∧
        Value.edit new (next :: path) w = .ok w' ∧ .list (vs.set i w') = v := by
  rw [Value.edit, bind_eq_ok]
  simp only [Prod.exists, bind_eq_ok, pure_eq_ok, exists_and_left]

theorem edit_dict_value {new : Value} :
    Value.edit new (step :: next :: path) (.dict es) = .ok v ↔ step.hashable = true ∧
      ∃ w w', Entries.value? es step = some w ∧
        Value.edit new (next :: path) w = .ok w' ∧ .dict (Entries.put step w' es) = v := by
  rw [Value.edit]
  cases step.hashable with
  | false => simp
  | true =>
    cases Entries.value? es step with
    | none => simp
    | some w =>
      simp only [Bool.not_true, Bool.false_eq_true, if_false, bind_eq_ok, pure_eq_ok,
        Option.some.injEq, exists_eq_left', true_and, exists_and_left]

theorem part_entries {number : Nat} {found : Held} :
    (dict number entries).part step = .ok found ↔
      step.hashable = true ∧ Entries.value? entries step = some found := by
  rw [part]
  cases step.hashable with
  | false => simp
  | true => cases Entries.value? entries step <;> simp

/-! ### Edits that go on inside -/

variable (hi : ∀ inner ∈ items, Mirrors new (next :: path) inner)
  (he : ∀ entry ∈ entries, Mirrors new (next :: path) entry.2)

include hi in
theorem mirrors_tuple (hn : (items.flatMap numbers).Nodup) :
    Mirrors new (step :: next :: path) (tuple items) := by
  intro v
  have hitems := mirrors_items hn hi (.tuple (items.map value)) step
  rw [value_tuple, edit_tuple_value]
  constructor
  · rintro ⟨i, w, w', hw, hedit, rfl⟩
    obtain ⟨change, ⟨i, item, hitem, hchange⟩, heq⟩ := (hitems _).mp ⟨i, w, w', hw, hedit, rfl⟩
    refine ⟨change, edit_cons.mpr ⟨item, part_tuple.mpr ⟨i, hitem⟩, hchange⟩, ?_⟩
    rw [changed_tuple, value_tuple, heq]
  · rintro ⟨change, h, rfl⟩
    obtain ⟨item, hpart, hchange⟩ := edit_cons.mp h
    obtain ⟨i, hitem⟩ := part_tuple.mp hpart
    obtain ⟨i, w, w', hw, hedit, heq⟩ := (hitems _).mpr ⟨change, ⟨i, item, hitem, hchange⟩, rfl⟩
    refine ⟨i, w, w', hw, hedit, ?_⟩
    rw [heq, changed_tuple, value_tuple]

/-- A change inside an item is none of the list itself. -/
theorem changed_list_of_mem {number : Nat} (hn : number ∉ items.flatMap numbers) {item : Held}
    (hitem : item ∈ items) (hc : change.number ∈ item.numbers) :
    (list number items).changed change = list number (items.map (changed change)) := by
  rw [changed_list, if_neg]
  rintro rfl
  exact hn (List.mem_flatMap.mpr ⟨item, hitem, hc⟩)

theorem changed_dict_of_mem {number : Nat}
    (hn : number ∉ entries.flatMap fun entry => entry.2.numbers) {inner : Held}
    (hinner : inner ∈ entries.map Prod.snd) (hc : change.number ∈ inner.numbers) :
    (dict number entries).changed change =
      dict number (entries.map fun entry => (entry.1, entry.2.changed change)) := by
  obtain ⟨entry, hentry, rfl⟩ := List.mem_map.mp hinner
  rw [changed_dict, if_neg]
  rintro rfl
  exact hn (List.mem_flatMap.mpr ⟨entry, hentry, hc⟩)

include hi in
theorem mirrors_list {number : Nat} (hn : (number :: items.flatMap numbers).Nodup) :
    Mirrors new (step :: next :: path) (list number items) := by
  obtain ⟨hnumber, hn⟩ := List.nodup_cons.mp hn
  intro v
  have hitems := mirrors_items hn hi (.list (items.map value)) step
  have hchanged : ∀ {i item change}, Value.itemAt (.list (items.map value)) items step =
      .ok (i, item) → edit new (next :: path) item = .ok change →
      (list number items).changed change = list number (items.map (changed change)) :=
    fun hitem hchange => changed_list_of_mem hnumber
      (List.mem_of_getElem? (getElem?_of_itemAt hitem)) (of_edit hchange).within
  rw [value_list, edit_list_value]
  constructor
  · rintro ⟨i, w, w', hw, hedit, rfl⟩
    obtain ⟨change, ⟨i, item, hitem, hchange⟩, heq⟩ := (hitems _).mp ⟨i, w, w', hw, hedit, rfl⟩
    refine ⟨change, edit_cons.mpr ⟨item, part_list.mpr ⟨i, hitem⟩, hchange⟩, ?_⟩
    rw [hchanged hitem hchange, value_list, heq]
  · rintro ⟨change, h, rfl⟩
    obtain ⟨item, hpart, hchange⟩ := edit_cons.mp h
    obtain ⟨i, hitem⟩ := part_list.mp hpart
    obtain ⟨j, w, w', hw, hedit, heq⟩ := (hitems _).mpr ⟨change, ⟨i, item, hitem, hchange⟩, rfl⟩
    refine ⟨j, w, w', hw, hedit, ?_⟩
    rw [heq, hchanged hitem hchange, value_list]

include he in
theorem mirrors_dict {number : Nat}
    (hn : (number :: entries.flatMap fun entry => entry.2.numbers).Nodup) :
    Mirrors new (step :: next :: path) (dict number entries) := by
  obtain ⟨hnumber, hn⟩ := List.nodup_cons.mp hn
  intro v
  have hentries := mirrors_entries hn he step
  have hchanged : ∀ {inner change}, Entries.value? entries step = some inner →
      edit new (next :: path) inner = .ok change → (dict number entries).changed change =
        dict number (entries.map fun entry => (entry.1, entry.2.changed change)) :=
    fun hinner hchange =>
      changed_dict_of_mem hnumber (mem_of_value? hinner) (of_edit hchange).within
  rw [value_dict, edit_dict_value]
  constructor
  · rintro ⟨hhash, w, w', hw, hedit, rfl⟩
    obtain ⟨change, ⟨inner, hinner, hchange⟩, heq⟩ := (hentries _).mp ⟨w, w', hw, hedit, rfl⟩
    refine ⟨change, edit_cons.mpr ⟨inner, part_entries.mpr ⟨hhash, hinner⟩, hchange⟩, ?_⟩
    rw [hchanged hinner hchange, value_dict, heq]
  · rintro ⟨change, h, rfl⟩
    obtain ⟨inner, hpart, hchange⟩ := edit_cons.mp h
    obtain ⟨hhash, hinner⟩ := part_entries.mp hpart
    obtain ⟨w, w', hw, hedit, heq⟩ := (hentries _).mpr ⟨change, ⟨inner, hinner, hchange⟩, rfl⟩
    refine ⟨hhash, w, w', hw, hedit, ?_⟩
    rw [heq, hchanged hinner hchange, value_dict]

end Cons

/-- An edit of what is not shared is an edit of its value. -/
theorem mirrors_of_nodup (new : Held) (path : List Value) {held : Held}
    (hn : held.numbers.Nodup) : Mirrors new path held := by
  induction path generalizing held with
  | nil =>
    intro v
    exact iff_of_false nofun fun h => nomatch h.choose_spec.1
  | cons step path ih =>
    cases path with
    | nil => exact mirrors_assign step new held
    | cons next path =>
      cases held with
      | leaf l => exact mirrors_leaf new _ l
      | tuple items =>
        rw [numbers_tuple] at hn
        exact mirrors_tuple (fun item hitem => ih ((List.nodup_flatMap.mp hn).1 item hitem)) hn
      | list number items =>
        rw [numbers_list] at hn
        have hitems := (List.nodup_flatMap.mp (List.nodup_cons.mp hn).2).1
        exact mirrors_list (fun item hitem => ih (hitems item hitem)) hn
      | dict number entries =>
        rw [numbers_dict] at hn
        have hentries := (List.nodup_flatMap.mp (List.nodup_cons.mp hn).2).1
        exact mirrors_dict (fun entry hentry => ih (hentries entry hentry)) hn

/-! ## Numbers that do not come twice -/

theorem nodup_flatMap_iff : (items.flatMap numbers).Nodup ↔
    (∀ item ∈ items, item.numbers.Nodup) ∧ Separate items := by
  rw [List.nodup_flatMap]
  exact and_congr_right fun _ => ⟨fun h => h.imp fun hab _ ha hb => hab ha hb,
    fun h => h.imp fun hab _ ha hb => hab _ ha hb⟩

theorem nodup_numbers_iff : held.numbers.Nodup ↔
    (∀ number, held.own? = some number → ∀ part ∈ held.inner, number ∉ part.numbers) ∧
      (∀ part ∈ held.inner, part.numbers.Nodup) ∧ Separate held.inner := by
  cases held with
  | leaf l => simp [own?, inner, Separate]
  | tuple items => simp [own?, inner, nodup_flatMap_iff]
  | list number items => simp [own?, inner, nodup_flatMap_iff, List.mem_flatMap]
  | dict number entries =>
    have hparts : (entries.flatMap fun entry => entry.2.numbers) =
        (entries.map Prod.snd).flatMap numbers := by rw [List.flatMap_map]
    rw [numbers_dict, hparts, List.nodup_cons, nodup_flatMap_iff]
    simp [own?, inner]

theorem separate_set (hs : Separate items)
    (hnew : ∀ item ∈ items, ∀ number ∈ item.numbers, number ∉ new.numbers) (i : Nat) :
    Separate (items.set i new) := by
  induction items generalizing i with
  | nil => exact hs
  | cons first rest ih =>
    obtain ⟨hfirst, hrest⟩ := List.pairwise_cons.mp hs
    obtain ⟨hnewFirst, hnewRest⟩ := List.forall_mem_cons.mp hnew
    cases i with
    | zero =>
      exact List.pairwise_cons.mpr
        ⟨fun item hitem number hn hi => hnewRest item hitem number hi hn, hrest⟩
    | succ i =>
      refine List.pairwise_cons.mpr ⟨fun item hitem => ?_, ih hrest hnewRest i⟩
      rcases List.mem_or_eq_of_mem_set hitem with hitem | rfl
      · exact hfirst item hitem
      · exact hnewFirst

theorem separate_put (hs : Separate (entries.map Prod.snd))
    (hnew : ∀ part ∈ entries.map Prod.snd, ∀ number ∈ part.numbers, number ∉ new.numbers)
    (key : Value) : Separate ((Entries.put key new entries).map Prod.snd) := by
  induction entries with
  | nil => exact List.pairwise_singleton ..
  | cons first rest ih =>
    obtain ⟨hfirst, hrest⟩ := List.pairwise_cons.mp hs
    obtain ⟨hnewFirst, hnewRest⟩ := List.forall_mem_cons.mp hnew
    rw [Entries.put]
    split
    · exact List.pairwise_cons.mpr
        ⟨fun part hpart number hn hp => hnewRest part hpart number hp hn, hrest⟩
    · refine List.pairwise_cons.mpr ⟨fun part hpart => ?_, ih hrest hnewRest⟩
      rcases mem_of_put hpart with hpart | rfl
      · exact hfirst part hpart
      · exact hnewFirst

/-- A change inside one part, with new numbers, brings none twice. -/
theorem nodup_changed_of_part {part : Held} (hn : held.numbers.Nodup)
    (hapart : ∀ number ∈ held.numbers, number ∉ new.numbers) (hpart : part ∈ held.inner)
    (hof : change.Of part new) (hchanged : (part.changed change).numbers.Nodup) :
    (held.changed change).numbers.Nodup := by
  obtain ⟨hnumber, hparts, hs⟩ := nodup_numbers_iff.mp hn
  have hpartsApart : ∀ other ∈ held.inner, ∀ number ∈ other.numbers, number ∉ new.numbers :=
    fun other hother number hn => hapart number (mem_numbers.mpr (.inr ⟨other, hother, hn⟩))
  rcases changed_cases change held with ⟨hown, -⟩ | ⟨-, hown, hinner⟩
  · exact absurd hof.within (hnumber _ hown part hpart)
  refine nodup_numbers_iff.mpr ?_
  rw [hown, hinner]
  refine ⟨fun number hsome _ hmapped hin => ?_, fun _ hmapped => ?_, ?_⟩
  · obtain ⟨other, hother, rfl⟩ := List.mem_map.mp hmapped
    rcases mem_numbers_changed hin with hin | ⟨-, hin⟩
    · exact hnumber number hsome other hother hin
    rcases hof.brings number hin with hin | hin
    · exact hnumber number hsome part hpart hin
    · exact hapart number (mem_numbers.mpr (.inl hsome)) hin
  · obtain ⟨other, hother, rfl⟩ := List.mem_map.mp hmapped
    by_cases hin : change.number ∈ other.numbers
    · exact hs.eq_of_mem hpart hother hof.within hin ▸ hchanged
    · exact (changed_of_not_mem hin).symm ▸ hparts other hother
  · exact hs.changed hpart hof.within hof.brings hpartsApart

section Nodup
variable (hnew : new.numbers.Nodup)
include hnew

theorem nodup_assign (hn : held.numbers.Nodup)
    (hapart : ∀ number ∈ held.numbers, number ∉ new.numbers)
    (h : assign step new held = .ok change) : change.form.numbers.Nodup := by
  obtain ⟨hown, hform, hinner⟩ := assign_cases h
  obtain ⟨hnumber, hparts, hs⟩ := nodup_numbers_iff.mp hn
  have hpartsApart : ∀ part ∈ held.inner, ∀ number ∈ part.numbers, number ∉ new.numbers :=
    fun part hpart number hn => hapart number (mem_numbers.mpr (.inr ⟨part, hpart, hn⟩))
  refine nodup_numbers_iff.mpr ⟨fun number hsome part hpart => ?_, fun part hpart => ?_, ?_⟩
  · rcases hinner part hpart with hold | rfl
    · exact hnumber number (hform ▸ hsome) part hold
    · exact hapart number (mem_numbers.mpr (.inl (hform ▸ hsome)))
  · rcases hinner part hpart with hold | rfl
    · exact hparts part hold
    · exact hnew
  · cases held with
    | leaf | tuple => cases h
    | list own items =>
      rw [assign] at h
      split at h
      · cases h
      split at h
      next i _ =>
        cases h
        exact separate_set hs hpartsApart i
      · cases h
    | dict own entries =>
      rw [assign] at h
      split at h
      · cases h
        exact separate_put hs hpartsApart step
      · cases h

theorem nodup_edit {path : List Value} (hn : held.numbers.Nodup)
    (hapart : ∀ number ∈ held.numbers, number ∉ new.numbers)
    (h : edit new path held = .ok change) : (held.changed change).numbers.Nodup := by
  induction path generalizing held with
  | nil => cases h
  | cons step path ih =>
    cases path with
    | nil =>
      rw [changed_of_own (assign_cases h).1]
      exact nodup_assign hnew hn hapart h
    | cons next path =>
      obtain ⟨part, hpart, hedit⟩ := edit_cons.mp h
      rcases part_cases hpart with hinner | ⟨l, rfl⟩
      · have hpartApart : ∀ number ∈ part.numbers, number ∉ new.numbers := fun number hn =>
          hapart number (mem_numbers.mpr (.inr ⟨part, hinner, hn⟩))
        have hpartNodup := (nodup_numbers_iff.mp hn).2.1 part hinner
        exact nodup_changed_of_part hn hapart hinner (of_edit hedit)
          (ih hpartNodup hpartApart hedit)
      · exact absurd hedit (edit_leaf new _ l change)

end Nodup

/-! ## New values -/

mutual

theorem value_ofValue (first : Nat) : ∀ v : Value, (ofValue first v).value = v
  | .tuple items => by rw [ofValue, value_tuple, value_ofItems]
  | .list items => by rw [ofValue, value_list, value_ofItems]
  | .dict entries => by rw [ofValue, value_dict, values_ofEntries]
  | .null | .bool _ | .int _ | .float _ | .str _ | .torn _ | .bytes _ | .set _ | .record .. |
    .foreign .. => rfl

theorem value_ofItems (first : Nat) : ∀ items : List Value, (ofItems first items).map value = items
  | [] => rfl
  | item :: rest => by rw [ofItems, List.map_cons, value_ofValue, value_ofItems]

theorem values_ofEntries (first : Nat) : ∀ entries : Entries, values (ofEntries first entries) = entries
  | [] => rfl
  | (key, value) :: rest => by
    have hrest := values_ofEntries (first + (ofValue first value).numbers.length) rest
    rw [values] at hrest ⊢
    rw [ofEntries, List.map_cons, value_ofValue, hrest]

end

theorem range'_append_length {first : Nat} {front others : List Nat}
    (hfront : front = List.range' first front.length)
    (hothers : others = List.range' (first + front.length) others.length) :
    front ++ others = List.range' first (front ++ others).length := by
  rw [List.length_append, ← List.range'_append_1, ← hfront, ← hothers]

theorem range'_cons_length {first : Nat} {others : List Nat}
    (hothers : others = List.range' (first + 1) others.length) :
    first :: others = List.range' first (first :: others).length := by
  rw [List.length_cons, List.range'_succ, ← hothers]

mutual

/-- A new value has the numbers from the first one on, each once. -/
theorem numbers_ofValue (first : Nat) : ∀ v : Value,
    (ofValue first v).numbers = List.range' first (ofValue first v).numbers.length
  | .tuple items => by rw [ofValue, numbers_tuple]; exact numbers_ofItems first items
  | .list items => by
    rw [ofValue, numbers_list]
    exact range'_cons_length (numbers_ofItems (first + 1) items)
  | .dict entries => by
    rw [ofValue, numbers_dict]
    exact range'_cons_length (numbers_ofEntries (first + 1) entries)
  | .null | .bool _ | .int _ | .float _ | .str _ | .torn _ | .bytes _ | .set _ | .record .. |
    .foreign .. => rfl

theorem numbers_ofItems (first : Nat) : ∀ items : List Value,
    (ofItems first items).flatMap numbers =
      List.range' first ((ofItems first items).flatMap numbers).length
  | [] => rfl
  | item :: rest => by
    rw [ofItems, List.flatMap_cons]
    exact range'_append_length (numbers_ofValue first item) (numbers_ofItems _ rest)

theorem numbers_ofEntries (first : Nat) : ∀ entries : Entries,
    (ofEntries first entries).flatMap (fun entry => entry.2.numbers) =
      List.range' first ((ofEntries first entries).flatMap fun entry => entry.2.numbers).length
  | [] => rfl
  | (key, value) :: rest => by
    rw [ofEntries, List.flatMap_cons]
    exact range'_append_length (numbers_ofValue first value) (numbers_ofEntries _ rest)

end

theorem nodup_ofValue (first : Nat) (v : Value) : (ofValue first v).numbers.Nodup := by
  rw [numbers_ofValue]
  exact List.nodup_range'

theorem nodup_moved (places : Nat) (hn : held.numbers.Nodup) : (held.moved places).numbers.Nodup := by
  rw [numbers_moved]
  exact hn.map fun a b hab => Nat.add_right_cancel hab

end Held
end SchemaScribe
