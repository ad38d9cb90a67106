import SchemaScribe.Sdl.Printer
import SchemaScribe.Proofs.Sdl.Separation

/-! # Names and type references

Names of the schema definition language, and how far a name or a type reference reaches in a text.
A name ends where a character follows that no name has, a type reference where no exclamation mark
follows either.
-/
namespace SchemaScribe.Sdl

def isNameStart (c : Char) : Bool := c.isAlpha || c == '_'

def isNameChar (c : Char) : Bool := c.isAlphanum || c == '_'

def isName : List Char → Bool
  | [] => false
  | c :: rest => isNameStart c && rest.all isNameChar

/-- Is the value a name of the language? -/
def IsNamed (v : Value) : Prop := ∃ s, v = .str s ∧ isName s.toList = true

/-- A text whose first character is such a one. -/
def Begins (p : Char → Prop) (text : List Char) : Prop := ∃ c more, p c ∧ text = c :: more

theorem begins_cons {p : Char → Prop} {c : Char} (hc : p c) (more : List Char) :
    Begins p (c :: more) := ⟨c, more, hc, rfl⟩

theorem Begins.imp {p q : Char → Prop} (hpq : ∀ c, p c → q c) {text : List Char}
    (h : Begins p text) : Begins q text := by
  obtain ⟨c, more, hc, rfl⟩ := h
  exact ⟨c, more, hpq c hc, rfl⟩

theorem not_begins_cons {p : Char → Prop} {c : Char} (hc : ¬ p c) (more : List Char) :
    ¬ Begins p (c :: more) := by
  rintro ⟨d, rest, hd, heq⟩
  obtain ⟨rfl, -⟩ := List.cons.inj heq
  exact hc hd

theorem isNameChar_of_start {c : Char} (h : isNameStart c = true) : isNameChar c = true := by
  simp only [isNameStart, isNameChar, Char.isAlphanum, Bool.or_eq_true] at h ⊢
  exact h.imp .inl id

theorem isName_cases {text : List Char} (h : isName text = true) :
    ∃ c rest, text = c :: rest ∧ isNameStart c = true ∧ ∀ d ∈ text, isNameChar d = true := by
  cases text with
  | nil => exact absurd h (by decide)
  | cons c rest =>
    simp only [isName, Bool.and_eq_true, List.all_eq_true] at h
    refine ⟨c, rest, rfl, h.1, fun d hd => ?_⟩
    rcases List.mem_cons.mp hd with rfl | hd
    · exact isNameChar_of_start h.1
    · exact h.2 d hd

theorem IsNamed.begins {v : Value} (h : IsNamed v) (rest : List Char) :
    Begins (isNameStart · = true) (v.display.toList ++ rest) := by
  obtain ⟨s, rfl, hs⟩ := h
  obtain ⟨c, more, htext, hc, -⟩ := isName_cases hs
  exact ⟨c, more ++ rest, hc, by rw [Value.display_str, htext, List.cons_append]⟩

/-- The first run of characters of a class is the same in equal texts. -/
theorem eq_of_run {p : Char → Bool} {a b r s : List Char} (ha : ∀ c ∈ a, p c = true)
    (hb : ∀ c ∈ b, p c = true) (hr : Begins (p · = false) r) (hs : Begins (p · = false) s)
    (h : a ++ r = b ++ s) : a = b ∧ r = s := by
  have htake : ∀ x y, (∀ c ∈ x, p c = true) → Begins (p · = false) y →
      (x ++ y).takeWhile p = x := by
    rintro x y hx ⟨c, more, hc, rfl⟩
    rw [List.takeWhile_append_of_pos hx, List.takeWhile_cons, hc]
    simp
  have hab : a = b := by rw [← htake a r ha hr, h, htake b s hb hs]
  subst hab
  exact ⟨rfl, List.append_cancel_left h⟩

def NameEnds : List Char → Prop := Begins (isNameChar · = false)

theorem separates_name : Separates (fun v : Value => v.display.toList) IsNamed NameEnds id := by
  rintro _ _ r s ⟨a, rfl, ha⟩ ⟨b, rfl, hb⟩ hr hs heq
  obtain ⟨_, _, -, -, ha⟩ := isName_cases ha
  obtain ⟨_, _, -, -, hb⟩ := isName_cases hb
  obtain ⟨hab, hrs⟩ := eq_of_run ha hb hr hs heq
  exact ⟨congrArg Value.str (String.toList_injective hab), hrs⟩

/-! ## Type references -/

/-- A type reference with so many more non-null modifiers around it. -/
def wrapNonNull : Nat → TypeRef → TypeRef
  | 0, t => t
  | n + 1, t => wrapNonNull n (.nonNull t)

def TypeEnds : List Char → Prop := Begins fun c => isNameChar c = false ∧ c ≠ '!'

theorem nameEnds_marks (n : Nat) {r : List Char} (hr : TypeEnds r) :
    NameEnds (List.replicate n '!' ++ r) := by
  cases n with
  | zero => exact hr.imp fun c hc => hc.1
  | succ n => exact begins_cons (by decide) _

theorem eq_of_marks {m n : Nat} {r s : List Char} (hr : TypeEnds r) (hs : TypeEnds s)
    (h : List.replicate m '!' ++ r = List.replicate n '!' ++ s) : m = n ∧ r = s := by
  have hmark : ∀ k, ∀ c ∈ List.replicate k '!', (c == '!') = true := by
    intro k c hc
    rw [List.eq_of_mem_replicate hc]
    rfl
  have hends : ∀ {t}, TypeEnds t → Begins (fun c => (c == '!') = false) t := fun ht =>
    ht.imp fun c hc => by simpa using hc.2
  obtain ⟨hmn, hrs⟩ := eq_of_run (hmark m) (hmark n) (hends hr) (hends hs) h
  exact ⟨by simpa using congrArg List.length hmn, hrs⟩

/-- Two references to names read the same only if they are, with any marks behind them. -/
theorem eq_of_typeText (t u : TypeRef) (ht : IsNamed t.innermost) (hu : IsNamed u.innermost)
    (m n : Nat) {r s : List Char} (hr : TypeEnds r) (hs : TypeEnds s)
    (h : t.text.toList ++ (List.replicate m '!' ++ r) = u.text.toList ++ (List.replicate n '!' ++ s)) :
    wrapNonNull m t = wrapNonNull n u ∧ r = s := by
  have hopen : ∀ (v : Value) (x y : List Char), IsNamed v → v.display.toList ++ x ≠ '[' :: y := by
    intro v x y hv heq
    exact not_begins_cons (by decide) y (heq ▸ hv.begins x)
  -- A non-null modifier of a reference is moved into the marks behind it, so their number varies.
  induction t generalizing u m n r s with
  | nonNull t ih =>
    refine ih u ht hu (m + 1) n hr hs ?_
    rw [← h]
    simp [TypeRef.text, List.replicate_succ]
  | named v =>
    induction u generalizing n with
    | nonNull u ihu =>
      refine ihu hu (n + 1) ?_
      rw [h]
      simp [TypeRef.text, List.replicate_succ]
    | named w =>
      obtain ⟨hvw, hmarks⟩ := separates_name ht hu (nameEnds_marks m hr) (nameEnds_marks n hs) h
      obtain ⟨rfl, hrs⟩ := eq_of_marks hr hs hmarks
      exact ⟨by rw [show v = w from hvw], hrs⟩
    | list u =>
      refine absurd h ?_
      simpa [TypeRef.text] using hopen v _ _ ht
  | list t ih =>
    induction u generalizing n with
    | nonNull u ihu =>
      refine ihu hu (n + 1) ?_
      rw [h]
      simp [TypeRef.text, List.replicate_succ]
    | named w =>
      refine absurd h.symm ?_
      simpa [TypeRef.text] using hopen w _ _ hu
    | list u =>
      have hclose : ∀ x, TypeEnds (']' :: x) := fun x => begins_cons (by decide) x
      obtain ⟨htu, hmarks⟩ := ih u ht hu 0 0 (hclose (List.replicate m '!' ++ r))
        (hclose (List.replicate n '!' ++ s)) (by simpa [TypeRef.text] using h)
      obtain ⟨rfl, hrs⟩ := eq_of_marks hr hs (List.cons.inj hmarks).2
      exact ⟨by rw [show t = u from htu], hrs⟩

theorem separates_typeRef :
    Separates (fun t : TypeRef => t.text.toList) (fun t => IsNamed t.innermost) TypeEnds id :=
  fun t u _ _ ht hu hr hs heq => eq_of_typeText t u ht hu 0 0 hr hs heq

end SchemaScribe.Sdl
