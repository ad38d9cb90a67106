import SchemaScribe.Sdl.Printer

/-! # Type references as texts

The text of a type reference tells it apart from every other one, as long as the names at their ends
have none of the marks that modifiers are written with. Without the marks the text is the name.
-/
namespace SchemaScribe.TypeRef

/-- Is it one of the marks that modifiers are written with? -/
def isModifierMark (c : Char) : Bool := ['[', ']', '!'].contains c

/-- The name at the end is a text without the marks of modifiers. -/
def Unmarked (t : TypeRef) : Prop :=
  ∃ name, t.innermost = .str name ∧ ∀ c ∈ name.toList, isModifierMark c = false

/-- A text with all marks of modifiers taken out. -/
def withoutMarks (text : String) : String :=
  String.ofList (text.toList.filter fun c => !isModifierMark c)

/-- The mark that the text of a reference ends in. -/
def lastMark? : TypeRef → Option Char
  | .named _ => none
  | .list _ => some ']'
  | .nonNull _ => some '!'

variable {t u : TypeRef}

theorem toList_text_list (t : TypeRef) : t.list.text.toList = '[' :: t.text.toList ++ [']'] := by
  simp [text]

theorem toList_text_nonNull (t : TypeRef) : t.nonNull.text.toList = t.text.toList ++ ['!'] := by
  simp [text]

theorem shown_eq_text (h : t.Unmarked) : t.shown = .str t.text := by
  cases t with
  | named v =>
    obtain ⟨name, hname, -⟩ := h
    obtain rfl : v = .str name := hname
    rfl
  | list | nonNull => rfl

/-! ## What is left without the marks -/

theorem filter_text {name : String} (hname : t.innermost = .str name)
    (hplain : ∀ c ∈ name.toList, isModifierMark c = false) :
    t.text.toList.filter (fun c => !isModifierMark c) = name.toList := by
  induction t with
  | named v =>
    obtain rfl : v = .str name := hname
    exact List.filter_eq_self.mpr fun c hc => by rw [hplain c hc]; rfl
  | list t ih =>
    have hmarks : isModifierMark '[' = true ∧ isModifierMark ']' = true := by decide
    simp [toList_text_list, hmarks, ih hname]
  | nonNull t ih =>
    have hmark : isModifierMark '!' = true := by decide
    simp [toList_text_nonNull, hmark, ih hname]

theorem innermost_eq_withoutMarks (h : t.Unmarked) :
    t.innermost = .str (withoutMarks t.text) := by
  obtain ⟨name, hname, hplain⟩ := h
  rw [withoutMarks, filter_text hname hplain, String.ofList_toList, hname]

/-! ## What a text tells -/

theorem lastMark?_eq (h : t.Unmarked) :
    t.lastMark? = t.text.toList.getLast?.filter isModifierMark := by
  cases t with
  | named v =>
    obtain ⟨name, hname, hplain⟩ := h
    obtain rfl : v = .str name := hname
    refine (Option.filter_eq_none_iff.mpr fun c hc => ?_).symm
    simpa using hplain c (List.mem_of_getLast? hc)
  | list t =>
    rw [toList_text_list, List.getLast?_concat]
    rfl
  | nonNull t =>
    rw [toList_text_nonNull, List.getLast?_concat]
    rfl

theorem eq_of_text_eq (ht : t.Unmarked) (hu : u.Unmarked) (h : t.text = u.text) : t = u := by
  -- Texts that end in the same mark have the same outermost modifier, and agree inside of it too.
  induction t generalizing u with
  | named v =>
    have hlast : none = u.lastMark? := by rw [lastMark?_eq hu, ← h, ← lastMark?_eq ht]; rfl
    obtain ⟨name, hname, -⟩ := ht
    obtain rfl : v = .str name := hname
    cases u with
    | named w =>
      obtain ⟨other, hother, -⟩ := hu
      obtain rfl : w = .str other := hother
      exact congrArg (fun s => named (.str s)) h
    | list | nonNull => exact absurd hlast (by simp [lastMark?])
  | list t ih =>
    have hlast : some ']' = u.lastMark? := by rw [lastMark?_eq hu, ← h, ← lastMark?_eq ht]; rfl
    cases u with
    | list u =>
      have hchars := congrArg String.toList h
      rw [toList_text_list, toList_text_list] at hchars
      have hinside := (List.cons.inj (List.append_cancel_right hchars)).2
      have hinner : t = u := ih ht hu (String.toList_injective hinside)
      rw [hinner]
    | named | nonNull => exact absurd hlast (by simp [lastMark?])
  | nonNull t ih =>
    have hlast : some '!' = u.lastMark? := by rw [lastMark?_eq hu, ← h, ← lastMark?_eq ht]; rfl
    cases u with
    | nonNull u =>
      have hchars := congrArg String.toList h
      rw [toList_text_nonNull, toList_text_nonNull] at hchars
      have hinner : t = u :=
        ih ht hu (String.toList_injective (List.append_cancel_right hchars))
      rw [hinner]
    | named | list => exact absurd hlast (by simp [lastMark?])

/-- A type reference is shown as a text from which the name at its end is left when the marks of the
modifiers are taken out, and only itself is shown as this text. -/
theorem shown_unambiguous (ht : t.Unmarked) :
    (∃ text, t.shown = .str text ∧ t.innermost = .str (withoutMarks text)) ∧
      ∀ u : TypeRef, u.Unmarked → (t.shown = u.shown ↔ t = u) := by
  refine ⟨⟨t.text, shown_eq_text ht, innermost_eq_withoutMarks ht⟩, fun u hu => ⟨fun h => ?_, ?_⟩⟩
  · rw [shown_eq_text ht, shown_eq_text hu] at h
    exact eq_of_text_eq ht hu (Value.str.inj h)
  · exact congrArg shown

/-- A row of cells that may be missing, and a row that may be missing. -/
theorem shown_unambiguous_rows :
    (nonNull (list (named (.str "Cell")))).Unmarked ∧
      (list (nonNull (named (.str "Cell")))).Unmarked ∧
      (nonNull (list (named (.str "Cell")))).shown = .str "[Cell]!" ∧
      withoutMarks "[Cell]!" = "Cell" ∧
      (nonNull (list (named (.str "Cell")))).shown ≠
        (list (nonNull (named (.str "Cell")))).shown := by
  have hall : "Cell".toList.all (fun c => !isModifierMark c) = true := by decide
  have hcell : ∀ c ∈ "Cell".toList, isModifierMark c = false := fun c hc => by
    simpa using List.all_eq_true.mp hall c hc
  have hrow : (nonNull (list (named (.str "Cell")))).Unmarked := ⟨"Cell", rfl, hcell⟩
  have hcells : (list (nonNull (named (.str "Cell")))).Unmarked := ⟨"Cell", rfl, hcell⟩
  obtain ⟨⟨text, htext, hname⟩, honly⟩ := shown_unambiguous hrow
  have hshown : (nonNull (list (named (.str "Cell")))).shown = .str "[Cell]!" := rfl
  obtain rfl : text = "[Cell]!" := Value.str.inj (htext.symm.trans hshown)
  refine ⟨hrow, hcells, hshown, (Value.str.inj hname).symm, fun h => ?_⟩
  exact absurd ((honly _ hcells).mp h) (by simp)

end SchemaScribe.TypeRef
