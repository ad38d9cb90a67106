import SchemaScribe.Text.Join
import SchemaScribe.Text.Lines

/-! # Telling written texts apart

A way of writing separates values if two texts can agree, each with something admissible behind it,
only where the values look the same and the same text follows. Writing values one after the other,
with or without a separator, separates the lists of them.
-/
namespace SchemaScribe.Sdl

variable {α β : Type}

def Separates (write : α → List Char) (Valid : α → Prop) (Next : List Char → Prop)
    (view : α → β) : Prop :=
  ∀ ⦃a b : α⦄ ⦃r s : List Char⦄, Valid a → Valid b → Next r → Next s →
    write a ++ r = write b ++ s → view a = view b ∧ r = s

section
variable {write : α → List Char} {Valid : α → Prop} {Next Last : List Char → Prop} {view : α → β}

theorem next_flatMap (write : α → List Char) (hlast : ∀ r, Last r → Next r) (hnext : ∀ a r, Valid a → Next (write a ++ r))
    {items : List α} {r : List Char} (hitems : ∀ a ∈ items, Valid a) (hr : Last r) :
    Next (items.flatMap write ++ r) := by
  cases items with
  | nil => exact hlast r hr
  | cons a items =>
    rw [List.flatMap_cons, List.append_assoc]
    exact hnext a _ (hitems a (List.mem_cons_self ..))

/-- Texts in a row are separated if none of them can be taken for what follows the last. -/
theorem Separates.flatMap (h : Separates write Valid Next view) (hlast : ∀ r, Last r → Next r)
    (hnext : ∀ a r, Valid a → Next (write a ++ r)) (hstop : ∀ a r, Valid a → ¬ Last (write a ++ r)) :
    Separates (List.flatMap write) (fun items => ∀ a ∈ items, Valid a) Last (List.map view) := by
  intro items others r s hitems hothers hr hs heq
  induction items generalizing others with
  | nil =>
    cases others with
    | nil => exact ⟨rfl, heq⟩
    | cons b others =>
      rw [List.flatMap_cons, List.append_assoc] at heq
      have heq' : r = write b ++ (others.flatMap write ++ s) := heq
      exact absurd (heq' ▸ hr) (hstop b _ (hothers b (List.mem_cons_self ..)))
  | cons a items ih =>
    have ha := hitems a (List.mem_cons_self ..)
    have hrest := fun c hc => hitems c (List.mem_cons_of_mem a hc)
    cases others with
    | nil =>
      rw [List.flatMap_cons, List.append_assoc] at heq
      have heq' : write a ++ (items.flatMap write ++ r) = s := heq
      exact absurd (heq' ▸ hs) (hstop a _ ha)
    | cons b others =>
      have hb := hothers b (List.mem_cons_self ..)
      have hrest' := fun c hc => hothers c (List.mem_cons_of_mem b hc)
      rw [List.flatMap_cons, List.flatMap_cons, List.append_assoc, List.append_assoc] at heq
      obtain ⟨hab, hmore⟩ := h ha hb (next_flatMap write hlast hnext hrest hr)
        (next_flatMap write hlast hnext hrest' hs) heq
      obtain ⟨hitems', hrs⟩ := ih hrest hrest' hmore
      exact ⟨by rw [List.map_cons, List.map_cons, hab, hitems'], hrs⟩

/-- What holds of values in a row is shown from the last one on. It may depend on how the text behind
a value begins. -/
theorem holds_flatMap {Holds : List α → List Char → Prop} {text : List Char} {items : List α}
    (h : Holds [] text) (hitem : ∀ a ∈ items, ∀ others more, Holds others more →
      (∀ r, Next r → Last (more ++ r)) → Holds (a :: others) (write a ++ more))
    (hbegin : ∀ a r, Last (write a ++ r)) (hnext : ∀ r, Next r → Last (text ++ r)) :
    Holds items (items.flatMap write ++ text) ∧
      ∀ r, Next r → Last (items.flatMap write ++ text ++ r) := by
  induction items with
  | nil => exact ⟨h, hnext⟩
  | cons a items ih =>
    obtain ⟨hrest, hlast⟩ := ih fun b hb => hitem b (List.mem_cons_of_mem a hb)
    rw [List.flatMap_cons, List.append_assoc]
    refine ⟨hitem a (List.mem_cons_self ..) _ _ hrest hlast, fun r _ => ?_⟩
    rw [List.append_assoc]
    exact hbegin a _

/-- Values with a separator between neighbours. -/
def joined (separator : List Char) (write : α → List Char) : List α → List Char
  | [] => []
  | a :: items => write a ++ items.flatMap fun b => separator ++ write b

theorem toList_joinWith (separator : String) (show' : α → String) (items : List α) :
    (Text.joinWith separator (items.map show')).toList =
      joined separator.toList (fun a => (show' a).toList) items := by
  induction items with
  | nil => rfl
  | cons a items ih =>
    cases items with
    | nil => simp [joined]
    | cons b items =>
      rw [List.map_cons, List.map_cons, Text.joinWith_cons_cons, String.toList_append,
        String.toList_append, ← List.map_cons, ih]
      simp [joined]

theorem Separates.joined (separator : List Char) (Last : List Char → Prop)
    (h : Separates write Valid Next view) (hlast : ∀ r, Last r → Next r) (hnext : ∀ r, Next (separator ++ r))
    (hstop : ∀ r, ¬ Last (separator ++ r)) :
    Separates (joined separator write) (fun items => items ≠ [] ∧ ∀ a ∈ items, Valid a) Last
      (List.map view) := by
  have hrest : Separates (fun b => separator ++ write b) Valid Next view := by
    intro a b r s ha hb hr hs heq
    rw [List.append_assoc, List.append_assoc] at heq
    exact h ha hb hr hs (List.append_cancel_left heq)
  have hnext' : ∀ (a : α) r, Valid a → Next ((separator ++ write a) ++ r) := fun a r _ => by
    rw [List.append_assoc]
    exact hnext _
  have hstop' : ∀ (a : α) r, Valid a → ¬ Last ((separator ++ write a) ++ r) := fun a r _ => by
    rw [List.append_assoc]
    exact hstop _
  rintro items others r s ⟨hne, hitems⟩ ⟨hne', hothers⟩ hr hs heq
  obtain ⟨a, items, rfl⟩ := List.exists_cons_of_ne_nil hne
  obtain ⟨b, others, rfl⟩ := List.exists_cons_of_ne_nil hne'
  have htail := fun c hc => hitems c (List.mem_cons_of_mem a hc)
  have htail' := fun c hc => hothers c (List.mem_cons_of_mem b hc)
  simp only [Sdl.joined, List.append_assoc] at heq
  obtain ⟨hab, hmore⟩ := h (hitems a (List.mem_cons_self ..)) (hothers b (List.mem_cons_self ..))
    (next_flatMap (fun b => separator ++ write b) hlast hnext' htail hr)
    (next_flatMap (fun b => separator ++ write b) hlast hnext' htail' hs)
    (by simpa only [List.append_assoc] using heq)
  obtain ⟨hitems', hrs⟩ := hrest.flatMap hlast hnext' hstop' htail htail' hr hs hmore
  exact ⟨by rw [List.map_cons, List.map_cons, hab, hitems'], hrs⟩

end

/-! ## Lines -/

def lineText (lines : List String) : List Char := lines.flatMap fun line => '\n' :: line.toList

@[simp] theorem lineText_nil : lineText [] = [] := rfl

@[simp] theorem lineText_cons (line : String) (lines : List String) :
    lineText (line :: lines) = '\n' :: line.toList ++ lineText lines := rfl

@[simp] theorem lineText_append (lines more : List String) :
    lineText (lines ++ more) = lineText lines ++ lineText more := List.flatMap_append

theorem lineText_flatMap (lines : α → List String) (items : List α) :
    lineText (items.flatMap lines) = items.flatMap fun a => lineText (lines a) :=
  List.flatMap_assoc

theorem toList_joinWith_lines (line : String) (lines : List String) :
    (Text.joinWith "\n" (line :: lines)).toList = line.toList ++ lineText lines := by
  have h := toList_joinWith "\n" id (line :: lines)
  rw [List.map_id] at h
  rw [h]
  rfl

end SchemaScribe.Sdl
