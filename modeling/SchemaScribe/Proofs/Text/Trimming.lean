import Mathlib.Data.List.DropRight
import SchemaScribe.Text.Blank

/-! # Trimming at both ends

What is left of a list when the members of a class are taken from both ends. It is the one part of
the list that has nothing of the class at its ends and nothing else around it.
-/
namespace SchemaScribe.Text

variable {α : Type} {p : α → Bool} {l middle front ends : List α}

def trimmed (p : α → Bool) (l : List α) : List α := (l.dropWhile p).rdropWhile p

/-- Neither the first nor the last member is of the class. -/
def IsTrimmed (p : α → Bool) (l : List α) : Prop :=
  (∀ a ∈ l.head?, p a = false) ∧ ∀ a ∈ l.getLast?, p a = false

theorem trimEnds_eq_trimmed (drop : Char → Bool) (s : List Char) :
    trimEnds drop s = trimmed drop s := rfl

theorem trimmed_append_left (h : ∀ a ∈ front, p a = true) (l : List α) :
    trimmed p (front ++ l) = trimmed p l := by
  rw [trimmed, List.dropWhile_append_of_pos h, trimmed]

theorem rdropWhile_append_of_pos (h : ∀ a ∈ ends, p a = true) (l : List α) :
    (l ++ ends).rdropWhile p = l.rdropWhile p := by
  have hends : ∀ a ∈ ends.reverse, p a = true := by simpa using h
  rw [List.rdropWhile, List.reverse_append, List.dropWhile_append_of_pos hends, List.rdropWhile]

theorem trimmed_append_right (h : ∀ a ∈ ends, p a = true) (l : List α) :
    trimmed p (l ++ ends) = trimmed p l := by
  rw [trimmed, trimmed, List.dropWhile_append]
  split
  · next hall => rw [List.isEmpty_iff.mp hall, List.dropWhile_eq_nil_iff.mpr h]
  · exact rdropWhile_append_of_pos h _

theorem trimmed_eq_nil_iff : trimmed p l = [] ↔ ∀ a ∈ l, p a = true := by
  constructor
  · intro h a ha
    rw [← List.takeWhile_append_dropWhile (p := p) (l := l), List.mem_append] at ha
    rcases ha with ha | ha
    · exact List.mem_takeWhile_imp ha
    · exact List.rdropWhile_eq_nil_iff.mp h a ha
  · exact fun h => trimmed_append_right h []

/-- Nothing but members of the class is lost, and only at the ends. -/
theorem exists_eq_trimmed (p : α → Bool) (l : List α) : ∃ front ends,
    (∀ a ∈ front, p a = true) ∧ (∀ a ∈ ends, p a = true) ∧ l = front ++ trimmed p l ++ ends := by
  refine ⟨l.takeWhile p, (l.dropWhile p).rtakeWhile p, fun a => List.mem_takeWhile_imp,
    fun a => List.mem_rtakeWhile_imp, ?_⟩
  rw [trimmed, List.append_assoc, List.rdropWhile_append_rtakeWhile,
    List.takeWhile_append_dropWhile]

theorem trimmed_sublist (p : α → Bool) (l : List α) : (trimmed p l).Sublist l :=
  (List.rdropWhile_prefix p _).sublist.trans (List.dropWhile_suffix p).sublist

theorem isTrimmed_trimmed (p : α → Bool) (l : List α) : IsTrimmed p (trimmed p l) := by
  constructor
  · intro a ha
    -- What is left begins as the list does without the members at its front.
    have hfront : a ∈ (l.dropWhile p).head? := by
      obtain ⟨ends, hends⟩ := List.rdropWhile_prefix p (l.dropWhile p)
      rw [← hends, List.head?_append, ← trimmed, Option.mem_def.mp ha]
      rfl
    have hnot := List.head?_dropWhile_not p l
    rw [Option.mem_def.mp hfront] at hnot
    exact hnot
  · intro a ha
    obtain ⟨hne, rfl⟩ := List.mem_getLast?_eq_getLast ha
    exact Bool.eq_false_iff.mpr (List.rdropWhile_last_not _ _ hne)

theorem IsTrimmed.trimmed_eq (h : IsTrimmed p l) : trimmed p l = l := by
  have hfirst : l.dropWhile p = l := by
    cases l with
    | nil => rfl
    | cons a l => exact List.dropWhile_cons_of_neg (Bool.eq_false_iff.mp (h.1 a rfl))
  rw [trimmed, hfirst]
  exact List.rdropWhile_eq_self_iff.mpr fun hne =>
    Bool.eq_false_iff.mp (h.2 _ (List.getLast_mem_getLast? hne))

theorem trimmed_eq_self_iff : trimmed p l = l ↔ IsTrimmed p l :=
  ⟨fun h => h ▸ isTrimmed_trimmed p l, IsTrimmed.trimmed_eq⟩

theorem trimmed_eq_iff : trimmed p l = middle ↔ IsTrimmed p middle ∧ ∃ front ends,
    (∀ a ∈ front, p a = true) ∧ (∀ a ∈ ends, p a = true) ∧ l = front ++ middle ++ ends := by
  constructor
  · rintro rfl
    exact ⟨isTrimmed_trimmed p l, exists_eq_trimmed p l⟩
  · rintro ⟨hmiddle, front, ends, hfront, hends, rfl⟩
    rw [trimmed_append_right hends, trimmed_append_left hfront, hmiddle.trimmed_eq]

end SchemaScribe.Text
