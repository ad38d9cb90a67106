import SchemaScribe.Proofs.Sdl.Description
import SchemaScribe.Proofs.Text.Trimming

/-! # The lines of a block string

What the specification makes of the text between the quotes of a block string. All lines but the
first lose the indentation that they share, and blank lines are dropped at both ends. So it does not
matter how far the lines of a text are indented, nor how many blank lines come after them.
-/
namespace SchemaScribe.Sdl

def isBlankLine (line : List Char) : Bool := line.all isIndent

def indentOf (line : List Char) : Nat := (line.takeWhile isIndent).length

/-- The least indentation of the lines that are not blank. -/
def commonIndent? (lines : List (List Char)) : Option Nat :=
  ((lines.filter fun line => !isBlankLine line).map indentOf).min?

def dedent (lines : List (List Char)) : List (List Char) :=
  match commonIndent? lines with
  | some n => lines.map (List.drop n)
  | none => lines

/-- A single line keeps its indentation. -/
def dedentSeveral (lines : List (List Char)) : List (List Char) :=
  if lines.length = 1 then lines else dedent lines

def trimBlankLines (lines : List (List Char)) : List (List Char) :=
  (lines.dropWhile isBlankLine).rdropWhile isBlankLine

def joinLines (lines : List (List Char)) : List Char := ['\n'].intercalate lines

def blockStringValue (raw : List Char) : List Char :=
  match Text.splitLines raw with
  | [] => []
  | first :: others => joinLines (trimBlankLines (first :: dedent others))

variable {line : List Char} {lines ends : List (List Char)}

/-! ## Blank lines at the ends -/

theorem isBlankLine_drop (h : isBlankLine line = true) (n : Nat) :
    isBlankLine (line.drop n) = true := by
  rw [isBlankLine, List.all_eq_true] at h ⊢
  exact fun c hc => h c (List.mem_of_mem_drop hc)

theorem isBlankLine_of_startsIndented (hne : line ≠ []) (h : startsIndented line = false) :
    isBlankLine line = false := by
  cases line with
  | nil => exact absurd rfl hne
  | cons c line =>
    have hc : isIndent c = false := h
    simp [isBlankLine, hc]

theorem trimBlankLines_cons (h : isBlankLine line = true) (lines : List (List Char)) :
    trimBlankLines (line :: lines) = trimBlankLines lines :=
  Text.trimmed_append_left (List.forall_mem_singleton.mpr h) lines

theorem trimBlankLines_append (h : ∀ line ∈ ends, isBlankLine line = true)
    (lines : List (List Char)) : trimBlankLines (lines ++ ends) = trimBlankLines lines :=
  Text.trimmed_append_right h lines

theorem trimBlankLines_of_blank (h : ∀ line ∈ lines, isBlankLine line = true) :
    trimBlankLines lines = [] :=
  Text.trimmed_eq_nil_iff.mpr h

theorem trimBlankLines_sublist (lines : List (List Char)) : (trimBlankLines lines).Sublist lines :=
  Text.trimmed_sublist isBlankLine lines

/-- Lines are kept as they are if there are no blank ones to drop. -/
theorem trimBlankLines_eq_self_iff (hne : lines ≠ []) : trimBlankLines lines = lines ↔
    isBlankLine (lines.head hne) = false ∧ isBlankLine (lines.getLast hne) = false := by
  have hends : Text.IsTrimmed isBlankLine lines ↔
      isBlankLine (lines.head hne) = false ∧ isBlankLine (lines.getLast hne) = false := by
    rw [Text.IsTrimmed, List.head?_eq_some_head hne, List.getLast?_eq_some_getLast hne]
    simp only [Option.mem_some_iff, forall_eq']
  exact Text.trimmed_eq_self_iff.trans hends

/-! ## The indentation that lines share -/

theorem commonIndent?_eq_some_iff {n : Nat} : commonIndent? lines = some n ↔
    (∃ line ∈ lines, isBlankLine line = false ∧ indentOf line = n) ∧
      ∀ line ∈ lines, isBlankLine line = false → n ≤ indentOf line := by
  rw [commonIndent?, List.min?_eq_some_iff, List.forall_mem_map]
  simp only [List.mem_map, List.mem_filter, Bool.not_eq_true', and_assoc, and_imp]

theorem commonIndent?_eq_none_iff :
    commonIndent? lines = none ↔ ∀ line ∈ lines, isBlankLine line = true := by
  simp [commonIndent?, List.min?_eq_none_iff]

theorem length_dedentSeveral (lines : List (List Char)) :
    (dedentSeveral lines).length = lines.length := by
  rw [dedentSeveral]
  split
  · rfl
  · rw [dedent]
    split <;> simp

theorem exists_of_mem_dedentSeveral (h : line ∈ dedentSeveral lines) :
    ∃ other ∈ lines, line <:+ other := by
  rw [dedentSeveral] at h
  split at h
  · exact ⟨line, h, List.suffix_rfl⟩
  · rw [dedent] at h
    split at h
    · obtain ⟨other, hother, rfl⟩ := List.mem_map.mp h
      exact ⟨other, hother, List.drop_suffix _ other⟩
    · exact ⟨line, h, List.suffix_rfl⟩

variable {indentation : List Char} (hi : ∀ c ∈ indentation, isIndent c = true)
include hi

theorem isBlankLine_indented (line : List Char) :
    isBlankLine (indentation ++ line) = isBlankLine line := by
  rw [isBlankLine, List.all_append, List.all_eq_true.mpr hi, Bool.true_and, isBlankLine]

theorem indentOf_indented (line : List Char) :
    indentOf (indentation ++ line) = indentation.length + indentOf line := by
  rw [indentOf, List.takeWhile_append_of_pos hi, List.length_append, indentOf]

theorem commonIndent?_indented (hends : ∀ line ∈ ends, isBlankLine line = true) {n : Nat}
    (h : commonIndent? lines = some n) :
    commonIndent? (lines.map (indentation ++ ·) ++ ends) = some (indentation.length + n) := by
  obtain ⟨⟨line, hmem, hblank, hline⟩, hle⟩ := commonIndent?_eq_some_iff.mp h
  refine commonIndent?_eq_some_iff.mpr ⟨⟨indentation ++ line, ?_, ?_, ?_⟩, ?_⟩
  · exact List.mem_append_left _ (List.mem_map_of_mem hmem)
  · rw [isBlankLine_indented hi, hblank]
  · rw [indentOf_indented hi, hline]
  · intro other hother hfull
    rcases List.mem_append.mp hother with hother | hother
    · obtain ⟨line, hline, rfl⟩ := List.mem_map.mp hother
      rw [isBlankLine_indented hi] at hfull
      rw [indentOf_indented hi]
      exact Nat.add_le_add_left (hle line hline hfull) _
    · exact absurd (hends other hother) (by simp [hfull])

/-- An indentation of all lines is taken from them again. Blank lines behind them are dropped. -/
theorem trimBlankLines_dedent_indented (hends : ∀ line ∈ ends, isBlankLine line = true) :
    trimBlankLines (dedent (lines.map (indentation ++ ·) ++ ends)) =
      trimBlankLines (dedent lines) := by
  cases hcommon : commonIndent? lines with
  | none =>
    have hblank := commonIndent?_eq_none_iff.mp hcommon
    have hall : ∀ line ∈ lines.map (indentation ++ ·) ++ ends, isBlankLine line = true := by
      intro other hother
      rcases List.mem_append.mp hother with hother | hother
      · obtain ⟨line, hline, rfl⟩ := List.mem_map.mp hother
        rw [isBlankLine_indented hi, hblank line hline]
      · exact hends other hother
    rw [dedent, commonIndent?_eq_none_iff.mpr hall, dedent, hcommon]
    exact (trimBlankLines_of_blank hall).trans (trimBlankLines_of_blank hblank).symm
  | some n =>
    have hdrop : ∀ line : List Char,
        (indentation ++ line).drop (indentation.length + n) = line.drop n := fun line => by
      rw [← List.drop_drop, List.drop_left]
    have hblank : ∀ line ∈ ends.map (List.drop (indentation.length + n)),
        isBlankLine line = true := by
      intro other hother
      obtain ⟨line, hline, rfl⟩ := List.mem_map.mp hother
      exact isBlankLine_drop (hends line hline) _
    rw [dedent, commonIndent?_indented hi hends hcommon, dedent, hcommon]
    simp only [List.map_append, List.map_map, Function.comp_def, hdrop]
    exact trimBlankLines_append hblank _

omit hi

/-- Lines that are not all blank stay as they are if one of them is not indented. -/
theorem dedent_eq_self_iff (hfull : ∃ line ∈ lines, isBlankLine line = false) :
    dedent lines = lines ↔ ∃ line ∈ lines, line ≠ [] ∧ startsIndented line = false := by
  have hindent : ∀ line : List Char, indentOf line = 0 ↔ startsIndented line = false := by
    intro line
    cases line with
    | nil => simp [indentOf, startsIndented]
    | cons c line => by_cases hc : isIndent c = true <;> simp [indentOf, startsIndented, hc]
  constructor
  · intro h
    cases hcommon : commonIndent? lines with
    | none =>
      obtain ⟨line, hline, hblank⟩ := hfull
      exact absurd (commonIndent?_eq_none_iff.mp hcommon line hline) (by simp [hblank])
    | some n =>
      obtain ⟨⟨line, hline, hblank, hn⟩, -⟩ := commonIndent?_eq_some_iff.mp hcommon
      have hne : line ≠ [] := by
        rintro rfl
        exact absurd hblank (by decide)
      rw [dedent, hcommon] at h
      have hkept : line.drop n = line :=
        List.map_eq_map_iff.mp (h.trans (List.map_id _).symm) line hline
      have hzero : n = 0 := by
        have hlength := congrArg List.length hkept
        have hpos := List.length_pos_iff.mpr hne
        rw [List.length_drop] at hlength
        omega
      exact ⟨line, hline, hne, (hindent line).mp (hn.trans hzero)⟩
  · rintro ⟨line, hline, hne, hstart⟩
    have hcommon : commonIndent? lines = some 0 :=
      commonIndent?_eq_some_iff.mpr ⟨⟨line, hline, isBlankLine_of_startsIndented hne hstart,
        (hindent line).mpr hstart⟩, fun _ _ _ => Nat.zero_le _⟩
    rw [dedent, hcommon]
    exact List.map_id _

theorem dedentSeveral_eq_self_iff (hfull : ∃ line ∈ lines, isBlankLine line = false) :
    dedentSeveral lines = lines ↔
      (lines.length ≠ 1 → ∃ line ∈ lines, line ≠ [] ∧ startsIndented line = false) := by
  rw [dedentSeveral, ← dedent_eq_self_iff hfull]
  by_cases hone : lines.length = 1 <;> simp [hone]

end SchemaScribe.Sdl
