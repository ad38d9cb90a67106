import SchemaScribe.Proofs.Introspection.Success
import SchemaScribe.Proofs.Json.Strings

/-! # Values that are read back

A value of null, truth values, whole numbers, texts, lists, tuples and objects is written so that a
reader has the same value again, with lists in place of the tuples. The reader stops behind the
last character that was written, whatever follows it, unless what follows makes a number longer.
-/
namespace SchemaScribe

namespace Value

mutual

/-- The value with lists in place of its tuples. -/
def untupled : Value → Value
  | .list items | .tuple items => .list (untupledItems items)
  | .dict entries => .dict (untupledEntries entries)
  | v => v

def untupledItems : List Value → List Value
  | [] => []
  | item :: items => untupled item :: untupledItems items

def untupledEntries : Entries → Entries
  | [] => []
  | (key, value) :: entries => (key, untupled value) :: untupledEntries entries

end

end Value

namespace Json

/-- A value of null, truth values, whole numbers of no more digits than the limit, texts, and lists,
tuples and objects of such values. The names in an object are texts, and each stands there once. -/
inductive Plain (limit : Option Nat) : Value → Prop
  | null : Plain limit .null
  | bool {b : Bool} : Plain limit (.bool b)
  | int {n : Int} : exceeds limit (Numeral.digitCount n) = false → Plain limit (.int n)
  | str {s : String} : Plain limit (.str s)
  | list {items : List Value} : (∀ item ∈ items, Plain limit item) → Plain limit (.list items)
  | tuple {items : List Value} : (∀ item ∈ items, Plain limit item) → Plain limit (.tuple items)
  | dict {entries : Entries} : (∀ entry ∈ entries, entry.1.isText = true) →
      (entries.map Prod.fst).Nodup → (∀ entry ∈ entries, Plain limit entry.2) →
      Plain limit (.dict entries)

/-- What makes no number longer that stands before it. -/
def NumberEnds (rest : List Char) : Prop :=
  ∀ c ∈ rest.head?, Text.isAsciiDigit c = false ∧ c ≠ '.' ∧ c ≠ 'e' ∧ c ≠ 'E'

/-- The text starts with no blank and with no closing bracket. -/
def Opens (text : List Char) : Prop :=
  ∃ c more, text = c :: more ∧ isBlank c = false ∧ c ≠ ']' ∧ c ≠ '\x7d'

/-- The text is read as the value. -/
structure ReadsBack (limit : Option Nat) (text : String) (v : Value) : Prop where
  ascii : Ascii text.toList
  opens : Opens text.toList
  read : ∀ fuel rest, text.toList.length ≤ fuel → NumberEnds rest →
    readValue limit fuel (text.toList ++ rest) = .ok (v, rest)

theorem numberEnds_nil : NumberEnds [] := by
  intro c hc
  cases hc

theorem numberEnds_cons {c : Char} (hc : c = ',' ∨ c = ']' ∨ c = '\x7d') (rest : List Char) :
    NumberEnds (c :: rest) := by
  intro other ho
  obtain rfl : c = other := by simpa using ho
  rcases hc with rfl | rfl | rfl <;> decide

theorem skipBlank_cons {c : Char} (hc : isBlank c = false) (rest : List Char) :
    skipBlank (c :: rest) = c :: rest := by
  rw [skipBlank, List.dropWhile_cons_of_neg (by simp [hc])]

theorem Opens.append {text : List Char} (h : Opens text) (more : List Char) :
    Opens (text ++ more) := by
  obtain ⟨c, others, rfl, hblank, hend⟩ := h
  exact ⟨c, _, rfl, hblank, hend⟩

theorem Opens.skipBlank_eq {text : List Char} (h : Opens text) : skipBlank text = text := by
  obtain ⟨c, more, rfl, hc, -⟩ := h
  exact skipBlank_cons hc more

/-! ## Numbers -/

section Numbers
variable {rest : List Char}

theorem isAsciiDigit_of_mem {n : Nat} {c : Char} (hc : c ∈ Nat.toDigits 10 n) :
    Text.isAsciiDigit c = true :=
  Nat.isDigit_of_mem_toDigits (by decide) (by decide) hc

theorem naturalOf_toDigits (n : Nat) : Text.naturalOf (Nat.toDigits 10 n) = n := by
  rw [Text.naturalOf, ← Nat.ofDigitChars_eq_foldl, Nat.ofDigitChars_ten_toDigits]

/-- Only zero is written with a zero in front. -/
theorem eq_zero_of_toDigits_eq {n : Nat} {more : List Char}
    (h : Nat.toDigits 10 n = '0' :: more) : n = 0 := by
  induction n using Nat.strongRecOn generalizing more with
  | ind n ih =>
    by_cases hn : n < 10
    · rw [Nat.toDigits_of_lt_base hn] at h
      have hzero : ∀ d < 10, Nat.digitChar d = '0' → d = 0 := by decide
      exact hzero n hn (List.head_eq_of_cons_eq h)
    · rw [Nat.toDigits_of_base_le (by decide) (Nat.not_lt.mp hn)] at h
      -- The first digit is that of the number without its last digit.
      cases hd : Nat.toDigits 10 (n / 10) with
      | nil => exact absurd hd Nat.toDigits_ne_nil
      | cons c front =>
        rw [hd, List.cons_append] at h
        obtain ⟨rfl, -⟩ := List.cons.inj h
        have hlow : n / 10 = 0 := ih _ (by omega) hd
        omega

theorem readWhole_toDigits (n : Nat) (hrest : NumberEnds rest) :
    readWhole (Nat.toDigits 10 n ++ rest) = some (Nat.toDigits 10 n, rest) := by
  have hall : ∀ c ∈ Nat.toDigits 10 n, Text.isAsciiDigit c = true := fun c => isAsciiDigit_of_mem
  have htake : rest.takeWhile Text.isAsciiDigit = [] := by
    cases rest with
    | nil => rfl
    | cons c more => rw [List.takeWhile_cons_of_neg (by simp [(hrest c rfl).1])]
  have hdrop : rest.dropWhile Text.isAsciiDigit = rest := by
    cases rest with
    | nil => rfl
    | cons c more => rw [List.dropWhile_cons_of_neg (by simp [(hrest c rfl).1])]
  have hspan : (Nat.toDigits 10 n ++ rest).takeWhile Text.isAsciiDigit = Nat.toDigits 10 n := by
    rw [List.takeWhile_append_of_pos hall, htake, List.append_nil]
  have hleft : (Nat.toDigits 10 n ++ rest).dropWhile Text.isAsciiDigit = rest := by
    rw [List.dropWhile_append_of_pos hall, hdrop]
  cases hd : Nat.toDigits 10 n with
  | nil => exact absurd hd Nat.toDigits_ne_nil
  | cons c more =>
    by_cases hc : c = '0'
    · subst hc
      obtain rfl := eq_zero_of_toDigits_eq hd
      obtain rfl : [] = more := (List.cons.inj hd).2
      rfl
    · have hdigit : Text.isAsciiDigit c = true := hall c (by simp [hd])
      rw [hd] at hspan hleft
      rw [List.cons_append] at hspan hleft ⊢
      simp [readWhole, hdigit, hspan, hleft]

theorem readFraction_of_ends (hrest : NumberEnds rest) : readFraction rest = ([], rest) := by
  cases rest with
  | nil => rfl
  | cons c more =>
    have hpoint : c ≠ '.' := (hrest c rfl).2.1
    simp [readFraction, hpoint]

theorem readExponent_of_ends (hrest : NumberEnds rest) : readExponent rest = (none, rest) := by
  cases rest with
  | nil => rfl
  | cons c more =>
    obtain ⟨-, -, hlower, hupper⟩ := hrest c rfl
    simp [readExponent, hlower, hupper]

theorem readNumber_toDigits {limit : Option Nat} {n : Nat}
    (hlimit : exceeds limit (Nat.toDigits 10 n).length = false) (hrest : NumberEnds rest)
    (negative : Bool) (start : List Char) :
    readNumber limit negative start (Nat.toDigits 10 n ++ rest) =
      .ok (.int (if negative then -n else n), rest) := by
  simp [readNumber, readWhole_toDigits n hrest, readFraction_of_ends hrest,
    readExponent_of_ends hrest, hlimit, naturalOf_toDigits]

theorem ne_of_digit {c other : Char} (hc : Text.isAsciiDigit c = true)
    (ho : Text.isAsciiDigit other = false) : other ≠ c := by
  rintro rfl
  rw [hc] at ho
  cases ho

/-- No word starts with a digit, and none with a sign and a digit. -/
theorem readWord?_of_digit {c : Char} (hc : Text.isAsciiDigit c = true) (more : List Char) :
    readWord? (c :: more) = none ∧ readWord? ('-' :: c :: more) = none := by
  have hn : 'n' ≠ c := ne_of_digit hc rfl
  have ht : 't' ≠ c := ne_of_digit hc rfl
  have hf : 'f' ≠ c := ne_of_digit hc rfl
  have hN : 'N' ≠ c := ne_of_digit hc rfl
  have hI : 'I' ≠ c := ne_of_digit hc rfl
  have hm : '-' ≠ c := ne_of_digit hc rfl
  constructor <;> simp [readWord?, words, hn, ht, hf, hN, hI, hm]

theorem toList_toString (n : Int) :
    (toString n).toList = (if n < 0 then ['-'] else []) ++ Nat.toDigits 10 n.natAbs := by
  have hrepr : toString n = n.repr := rfl
  rw [hrepr, Int.repr_eq_if]
  split
  · next hn =>
    have hnat : n.toNat = n.natAbs := by omega
    simp [Nat.repr_eq_ofList_toDigits, Int.not_lt.mpr hn, hnat]
  · next hn =>
    have hnat : (-n).toNat = n.natAbs := by omega
    simp [Nat.repr_eq_ofList_toDigits, Int.not_le.mp hn, hnat]

end Numbers

/-! ## Single values -/

section Single
variable {limit : Option Nat}

theorem readsBack_word {word : String} {value : Value}
    (hw : (word, value) ∈ [("null", .null), ("true", .bool true), ("false", .bool false)]) :
    ReadsBack limit word value := by
  simp only [List.mem_cons, List.not_mem_nil, or_false, Prod.mk.injEq] at hw
  rcases hw with ⟨rfl, rfl⟩ | ⟨rfl, rfl⟩ | ⟨rfl, rfl⟩
  all_goals
    refine ⟨by decide, ⟨_, _, rfl, rfl, by decide⟩, fun fuel rest hfuel _ => ?_⟩
    cases fuel with
    | zero => cases hfuel
    | succ fuel => rfl

theorem readValue_of_digit {c : Char} (hc : Text.isAsciiDigit c = true) (fuel : Nat)
    (more : List Char) :
    readValue limit (fuel + 1) (c :: more) = readNumber limit false (c :: more) (c :: more) ∧
      readValue limit (fuel + 1) ('-' :: c :: more) =
        readNumber limit true ('-' :: c :: more) (c :: more) := by
  obtain ⟨hplain, hminus⟩ := readWord?_of_digit hc more
  have hquote : c ≠ '"' := (ne_of_digit hc rfl).symm
  have hlist : c ≠ '[' := (ne_of_digit hc rfl).symm
  have hobject : c ≠ '\x7b' := (ne_of_digit hc rfl).symm
  have hsign : c ≠ '-' := (ne_of_digit hc rfl).symm
  constructor
  · simp [readValue, readScalar, hplain, hquote, hlist, hobject, hsign]
  · simp [readValue, readScalar, hminus]

theorem ascii_toDigits (n : Nat) : Ascii (Nat.toDigits 10 n) := by
  intro c hc
  have hdigit := isAsciiDigit_of_mem hc
  simp only [Text.isAsciiDigit, Bool.and_eq_true, decide_eq_true_eq, Char.le_def] at hdigit
  have hlast : c.toNat ≤ '9'.toNat := hdigit.2
  exact Nat.lt_of_le_of_lt hlast (by decide)

theorem isBlank_of_digit {c : Char} (hc : Text.isAsciiDigit c = true) : isBlank c = false := by
  have hspace : c ≠ ' ' := (ne_of_digit hc rfl).symm
  have htab : c ≠ '\t' := (ne_of_digit hc rfl).symm
  have hfeed : c ≠ '\n' := (ne_of_digit hc rfl).symm
  have hreturn : c ≠ '\r' := (ne_of_digit hc rfl).symm
  simp [isBlank, hspace, htab, hfeed, hreturn]

theorem exists_first_digit (n : Nat) : ∃ first more, Nat.toDigits 10 n = first :: more ∧
    Text.isAsciiDigit first = true := by
  obtain ⟨first, more, hfirst⟩ : ∃ first more, Nat.toDigits 10 n = first :: more :=
    List.exists_cons_of_ne_nil Nat.toDigits_ne_nil
  have hmem : first ∈ Nat.toDigits 10 n := by simp [hfirst]
  exact ⟨first, more, hfirst, isAsciiDigit_of_mem hmem⟩

theorem readValue_toDigits {n : Nat} {rest : List Char}
    (hlimit : exceeds limit (Nat.toDigits 10 n).length = false) (hrest : NumberEnds rest)
    (fuel : Nat) :
    readValue limit (fuel + 1) (Nat.toDigits 10 n ++ rest) = .ok (.int n, rest) ∧
      readValue limit (fuel + 1) ('-' :: (Nat.toDigits 10 n ++ rest)) = .ok (.int (-n), rest) := by
  have hnumber := readNumber_toDigits hlimit hrest
  obtain ⟨first, more, hfirst, hdigit⟩ := exists_first_digit n
  rw [hfirst, List.cons_append] at hnumber ⊢
  obtain ⟨hplain, hminus⟩ := readValue_of_digit hdigit fuel (more ++ rest)
  exact ⟨hplain.trans (hnumber false _), hminus.trans (hnumber true _)⟩

theorem readsBack_int {n : Int} (hlimit : exceeds limit (Numeral.digitCount n) = false) :
    ReadsBack limit (toString n) (.int n) := by
  have htext := toList_toString n
  have hascii := ascii_toDigits n.natAbs
  by_cases hneg : n < 0
  · have hsign : Ascii ['-'] := by decide
    have hn : -(n.natAbs : Int) = n := by omega
    rw [if_pos hneg, List.singleton_append] at htext
    constructor <;> rw [htext]
    · exact hsign.append hascii
    · exact ⟨'-', _, rfl, rfl, by decide⟩
    · intro fuel rest hfuel hrest
      cases fuel with
      | zero => cases hfuel
      | succ fuel =>
        have hread := (readValue_toDigits hlimit hrest fuel).2
        rwa [hn] at hread
  · obtain ⟨first, more, hfirst, hdigit⟩ := exists_first_digit n.natAbs
    have hn : (n.natAbs : Int) = n := by omega
    rw [if_neg hneg, List.nil_append] at htext
    constructor <;> rw [htext]
    · exact hascii
    · exact ⟨first, more, hfirst, isBlank_of_digit hdigit, (ne_of_digit hdigit rfl).symm,
        (ne_of_digit hdigit rfl).symm⟩
    · intro fuel rest hfuel hrest
      cases fuel with
      | zero =>
        rw [hfirst] at hfuel
        cases hfuel
      | succ fuel =>
        have hread := (readValue_toDigits hlimit hrest fuel).1
        rwa [hn] at hread

theorem readsBack_str (s : String) : ReadsBack limit (writeString true s) (.str s) := by
  have htext : (writeString true s).toList =
      '"' :: (s.toList.flatMap (writeChar true) ++ ['"']) := by
    rw [writeString, String.toList_ofList]
    rfl
  refine ⟨ascii_writeString s, ?_, fun fuel rest hfuel _ => ?_⟩
  · rw [htext]
    exact ⟨'"', _, rfl, rfl, by decide⟩
  · rw [htext] at hfuel ⊢
    cases fuel with
    | zero => cases hfuel
    | succ fuel =>
      rw [List.cons_append, List.append_assoc, List.singleton_append, readValue, readText_written]

end Single

/-! ## Texts between brackets -/

theorem toList_joinWith_cons (part next : String) (parts : List String) :
    (Text.joinWith ", " (part :: next :: parts)).toList =
      part.toList ++ ',' :: ' ' :: (Text.joinWith ", " (next :: parts)).toList := by
  rw [Text.joinWith_cons_cons, String.toList_append, String.toList_append, List.append_assoc]
  rfl

theorem ascii_joinWith {parts : List String} (h : ∀ part ∈ parts, Ascii part.toList) :
    Ascii (Text.joinWith ", " parts).toList := by
  induction parts with
  | nil =>
    decide
  | cons part parts ih =>
    obtain ⟨hfirst, hrest⟩ := List.forall_mem_cons.mp h
    cases parts with
    | nil => exact hfirst
    | cons next parts =>
      have hcomma : Ascii [',', ' '] := by decide
      rw [toList_joinWith_cons]
      exact hfirst.append (hcomma.append (ih hrest))

/-- Texts with a comma and a blank between them start as the first one does. -/
theorem opens_joinWith {part : String} (h : Opens part.toList) (parts : List String) :
    Opens (Text.joinWith ", " (part :: parts)).toList := by
  cases parts with
  | nil => exact h
  | cons next parts =>
    rw [toList_joinWith_cons]
    exact h.append _

/-- A reader of texts with a comma between them, up to a closing bracket. -/
structure ReadsJoined {α : Type} (R : String → α → Prop) (closing : Char)
    (reader : Nat → List Char → Reading (List α)) : Prop where
  opens : ∀ {part a}, R part a → Opens part.toList
  last : ∀ {part a}, R part a → ∀ {fuel}, part.toList.length ≤ fuel → ∀ after,
    reader (fuel + 1) (part.toList ++ closing :: after) = .ok ([a], after)
  more : ∀ {part a}, R part a → ∀ {fuel}, part.toList.length ≤ fuel → ∀ after,
    reader (fuel + 1) (part.toList ++ ',' :: after) =
      (reader fuel (skipBlank after)).map fun (found, rest) => (a :: found, rest)

theorem ReadsJoined.read {α : Type} {R : String → α → Prop} {closing : Char}
    {reader : Nat → List Char → Reading (List α)} (hr : ReadsJoined R closing reader)
    {part : String} {parts : List String} {found : List α}
    (h : List.Forall₂ R (part :: parts) found) {fuel : Nat} (rest : List Char)
    (hfuel : (Text.joinWith ", " (part :: parts)).toList.length < fuel) :
    reader fuel ((Text.joinWith ", " (part :: parts)).toList ++ closing :: rest) =
      .ok (found, rest) := by
  induction parts generalizing part found fuel with
  | nil =>
    obtain ⟨a, none, hfirst, hnone, rfl⟩ := List.forall₂_cons_left_iff.mp h
    cases hnone
    cases fuel with
    | zero => cases hfuel
    | succ fuel => exact hr.last hfirst (Nat.le_of_lt_succ hfuel) rest
  | cons next parts ih =>
    obtain ⟨a, others, hfirst, hrest, rfl⟩ := List.forall₂_cons_left_iff.mp h
    obtain ⟨b, -, hnext, -, -⟩ := List.forall₂_cons_left_iff.mp hrest
    cases fuel with
    | zero => cases hfuel
    | succ fuel =>
      rw [toList_joinWith_cons, List.length_append, List.length_cons, List.length_cons] at hfuel
      rw [toList_joinWith_cons, List.append_assoc, List.cons_append, List.cons_append]
      have hmore : reader fuel
          ((Text.joinWith ", " (next :: parts)).toList ++ closing :: rest) = .ok (others, rest) :=
        ih hrest (by omega)
      have hopens := (opens_joinWith (hr.opens hnext) parts).append (closing :: rest)
      generalize (Text.joinWith ", " (next :: parts)).toList ++ closing :: rest = after at *
      have hskip : skipBlank (' ' :: after) = after := hopens.skipBlank_eq
      rw [hr.more hfirst (by omega), hskip, hmore]
      rfl

section Brackets
variable {limit : Option Nat}

/-- A text between two brackets is read as a value, if a reader that has met the first of them finds
the second one behind the text. -/
theorem readsBack_bracketed {opening closing : Char} {left right : String} {parts : List String}
    {v : Value} (hleft : left.toList = [opening]) (hright : right.toList = [closing])
    (hopening : isBlank opening = false ∧ opening ≠ ']' ∧ opening ≠ '\x7d')
    (hascii : Ascii [opening, closing]) (hparts : ∀ part ∈ parts, Ascii part.toList)
    (hread : ∀ {fuel} rest, (Text.joinWith ", " parts).toList.length < fuel →
      readValue limit (fuel + 1)
        (opening :: ((Text.joinWith ", " parts).toList ++ closing :: rest)) = .ok (v, rest)) :
    ReadsBack limit (Value.bracketed left right parts) v := by
  have htext : (Value.bracketed left right parts).toList =
      opening :: ((Text.joinWith ", " parts).toList ++ [closing]) := by
    rw [Value.bracketed, String.toList_append, String.toList_append, hleft, hright,
      List.append_assoc, List.singleton_append]
  constructor <;> rw [htext]
  · intro c hc
    rcases List.mem_cons.mp hc with rfl | hc
    · exact hascii _ (List.mem_cons_self ..)
    rcases List.mem_append.mp hc with hc | hc
    · exact ascii_joinWith hparts c hc
    · exact hascii c (List.mem_cons_of_mem _ hc)
  · exact ⟨opening, _, rfl, hopening⟩
  · intro fuel rest hfuel _
    rw [List.length_cons, List.length_append, List.length_singleton] at hfuel
    cases fuel with
    | zero => omega
    | succ fuel =>
      rw [List.cons_append, List.append_assoc, List.singleton_append]
      exact hread rest (by omega)

end Brackets

/-! ## Lists -/

section Lists
variable {limit : Option Nat}

theorem readsJoined_items : ReadsJoined (ReadsBack limit) ']' (readItems limit) where
  opens h := h.opens
  last h fuel hfuel after := by
    have hread := h.read fuel (']' :: after) hfuel (numberEnds_cons (by simp) after)
    rw [readItems, hread]
    rfl
  more h fuel hfuel after := by
    have hread := h.read fuel (',' :: after) hfuel (numberEnds_cons (by simp) after)
    rw [readItems, hread]
    rfl

theorem readValue_list {inner : List Char} (h : Opens inner) (fuel : Nat) :
    readValue limit (fuel + 1) ('[' :: inner) =
      (readItems limit fuel inner).map fun (items, after) => (.list items, after) := by
  obtain ⟨c, more, rfl, hblank, hend, -⟩ := h
  simp [readValue, skipBlank_cons hblank, hend]

theorem readsBack_list {parts : List String} {items : List Value}
    (h : List.Forall₂ (ReadsBack limit) parts items) :
    ReadsBack limit (Value.bracketed "[" "]" parts) (.list items) := by
  have hascii : Ascii ['[', ']'] := by decide
  have hparts : ∀ part ∈ parts, Ascii part.toList := by
    intro part hp
    obtain ⟨item, -, hread⟩ := Success.exists_item_of_forall₂ h hp
    exact hread.ascii
  have hleft : "[".toList = ['['] := rfl
  have hright : "]".toList = [']'] := rfl
  refine readsBack_bracketed hleft hright (by decide) hascii hparts fun rest hfuel => ?_
  cases h with
  | nil => rfl
  | @cons part item parts items hfirst hrest =>
    have hopens := (opens_joinWith hfirst.opens parts).append (']' :: rest)
    rw [readValue_list hopens, readsJoined_items.read (.cons hfirst hrest) rest hfuel]
    rfl

end Lists

/-! ## Objects -/

/-- A name with the text of a value. -/
def entryText (name text : String) : String := writeString true name ++ ": " ++ text

/-- The text is read as the entry of an object. -/
inductive EntryReadsBack (limit : Option Nat) : String → Value × Value → Prop
  | named {name text : String} {value : Value} : ReadsBack limit text value →
      EntryReadsBack limit (entryText name text) (.str name, value)

section Objects
variable {limit : Option Nat}

theorem toList_entryText (name text : String) : (entryText name text).toList =
    '"' :: (name.toList.flatMap (writeChar true) ++ '"' :: ':' :: ' ' :: text.toList) := by
  rw [entryText, String.toList_append, String.toList_append, writeString, String.toList_ofList,
    List.append_assoc, List.append_assoc]
  rfl

theorem EntryReadsBack.ascii {part : String} {entry : Value × Value}
    (h : EntryReadsBack limit part entry) : Ascii part.toList := by
  obtain ⟨htext⟩ := h
  have hcolon : Ascii ": ".toList := by decide
  rw [entryText, String.toList_append, String.toList_append]
  exact ((ascii_writeString _).append hcolon).append htext.ascii

theorem EntryReadsBack.opens {part : String} {entry : Value × Value}
    (h : EntryReadsBack limit part entry) : Opens part.toList := by
  obtain ⟨-⟩ := h
  rw [toList_entryText]
  exact ⟨'"', _, rfl, rfl, by decide⟩

/-- An entry is read up to the comma or the bracket behind it. -/
theorem EntryReadsBack.read {part : String} {entry : Value × Value}
    (h : EntryReadsBack limit part entry) {fuel : Nat} (hfuel : part.toList.length ≤ fuel)
    (after : List Char) :
    readMembers limit (fuel + 1) (part.toList ++ '\x7d' :: after) = .ok ([entry], after) ∧
      readMembers limit (fuel + 1) (part.toList ++ ',' :: after) =
        (readMembers limit fuel (skipBlank after)).map fun (members, rest) =>
          (entry :: members, rest) := by
  cases h with
  | @named name text value htext =>
    rw [toList_entryText] at hfuel ⊢
    have hlength : text.toList.length ≤ fuel := by
      simp only [List.length_cons, List.length_append] at hfuel
      omega
    have hskip : ∀ rest, skipBlank (' ' :: (text.toList ++ rest)) = text.toList ++ rest :=
      fun rest => (htext.opens.append rest).skipBlank_eq
    -- The name ends at its quote, and the value stands behind the colon and a blank.
    constructor
    all_goals
      rw [List.cons_append, List.append_assoc, List.cons_append, List.cons_append, List.cons_append,
        readMembers, readText_written]
      show (readValue limit fuel (skipBlank (' ' :: (text.toList ++ _)))).bind _ = _
      rw [hskip, htext.read fuel _ hlength (numberEnds_cons (by simp) after)]
      rfl

theorem readsJoined_entries :
    ReadsJoined (EntryReadsBack limit) '\x7d' (readMembers limit) where
  opens h := h.opens
  last h _ hfuel after := (h.read hfuel after).1
  more h _ hfuel after := (h.read hfuel after).2

/-- A name that is not there yet is put at the end. -/
theorem put_new {key : Value} (hkey : key.isText = true) (value : Value) {done : Entries}
    (htext : ∀ entry ∈ done, entry.1.isText = true) (hnew : key ∉ done.map Prod.fst) :
    Entries.put key value done = done ++ [(key, value)] := by
  induction done with
  | nil => rfl
  | cons entry done ih =>
    obtain ⟨old, held⟩ := entry
    obtain ⟨hold, hrest⟩ := List.forall_mem_cons.mp htext
    rw [List.map_cons, List.mem_cons, not_or] at hnew
    obtain ⟨hne, hnew⟩ := hnew
    have hdiffers : old.same key = false := by
      cases old with
      | str name =>
        cases key with
        | str other =>
          rw [Value.same_str, beq_eq_false_iff_ne]
          rintro rfl
          exact hne rfl
        | _ => cases hkey
      | _ => cases hold
    rw [Entries.put, hdiffers, if_neg Bool.false_ne_true, ih hrest hnew]
    rfl

/-- Entries with different names stay as they are. -/
theorem ofList_of_nodup {entries : Entries} (htext : ∀ entry ∈ entries, entry.1.isText = true)
    (hn : (entries.map Prod.fst).Nodup) : Entries.ofList entries = entries := by
  suffices hfold : ∀ done : Entries, (∀ entry ∈ done ++ entries, entry.1.isText = true) →
      ((done ++ entries).map Prod.fst).Nodup →
      entries.foldl (fun done entry => Entries.put entry.1 entry.2 done) done = done ++ entries from
    hfold [] htext hn
  clear htext hn
  induction entries with
  | nil =>
    intro done _ _
    rw [List.append_nil]
    rfl
  | cons entry entries ih =>
    intro done htext hn
    have hsplit : done ++ entry :: entries = done ++ [entry] ++ entries := by simp
    have hkey : entry.1.isText = true := htext entry (by simp)
    have hdone : ∀ other ∈ done, other.1.isText = true :=
      fun other ho => htext other (List.mem_append_left _ ho)
    have hnew : entry.1 ∉ done.map Prod.fst := by
      rw [List.map_append, List.nodup_append] at hn
      intro hmem
      exact hn.2.2 _ hmem entry.1 (by simp) rfl
    rw [List.foldl_cons, put_new hkey entry.2 hdone hnew]
    rw [hsplit] at htext hn ⊢
    exact ih _ htext hn

theorem readValue_dict {inner : List Char} (h : Opens inner) (fuel : Nat) :
    readValue limit (fuel + 1) ('\x7b' :: inner) =
      (readMembers limit fuel inner).map fun (members, after) =>
        (.dict (Entries.ofList members), after) := by
  obtain ⟨c, more, rfl, hblank, -, hend⟩ := h
  simp [readValue, skipBlank_cons hblank, hend]

theorem readsBack_dict {parts : List String} {entries : Entries}
    (h : List.Forall₂ (EntryReadsBack limit) parts entries)
    (hn : (entries.map Prod.fst).Nodup) :
    ReadsBack limit (Value.bracketed "\x7b" "\x7d" parts) (.dict entries) := by
  have hascii : Ascii ['\x7b', '\x7d'] := by decide
  have hparts : ∀ part ∈ parts, Ascii part.toList := by
    intro part hp
    obtain ⟨entry, -, hread⟩ := Success.exists_item_of_forall₂ h hp
    exact hread.ascii
  have htext : ∀ entry ∈ entries, entry.1.isText = true := by
    intro entry he
    obtain ⟨part, -, hread⟩ := Success.exists_mem_of_forall₂ h he
    cases hread
    rfl
  have hleft : "\x7b".toList = ['\x7b'] := rfl
  have hright : "\x7d".toList = ['\x7d'] := rfl
  refine readsBack_bracketed hleft hright (by decide) hascii hparts fun rest hfuel => ?_
  cases h with
  | nil => rfl
  | @cons part entry parts entries hfirst hrest =>
    have hopens := (opens_joinWith hfirst.opens parts).append ('\x7d' :: rest)
    rw [readValue_dict hopens, readsJoined_entries.read (.cons hfirst hrest) rest hfuel]
    show Except.ok (Value.dict (Entries.ofList _), rest) = _
    rw [ofList_of_nodup htext hn]

end Objects

/-! ## What is written -/

/-- The style of a request, with a limit of its own to the digits of a whole number. -/
def strictStyle (limit : Option Nat) : Style := { Style.request with digits := limit }

section Written
variable {limit readerLimit : Option Nat}

theorem exists_writeItems {items : List Value}
    (h : ∀ item ∈ items, ∃ text, write (strictStyle limit) item = .ok text ∧
      ReadsBack readerLimit text item.untupled) :
    ∃ parts, writeItems (strictStyle limit) items = .ok parts ∧
      List.Forall₂ (ReadsBack readerLimit) parts (Value.untupledItems items) := by
  induction items with
  | nil => exact ⟨[], rfl, .nil⟩
  | cons item items ih =>
    obtain ⟨hfirst, hrest⟩ := List.forall_mem_cons.mp h
    obtain ⟨text, htext, hread⟩ := hfirst
    obtain ⟨parts, hparts, hreads⟩ := ih hrest
    refine ⟨text :: parts, ?_, .cons hread hreads⟩
    rw [writeItems, htext, hparts]
    rfl

theorem exists_writeEntries {entries : Entries}
    (hname : ∀ entry ∈ entries, entry.1.isText = true)
    (h : ∀ entry ∈ entries, ∃ text, write (strictStyle limit) entry.2 = .ok text ∧
      ReadsBack readerLimit text entry.2.untupled) :
    ∃ parts, writeEntries (strictStyle limit) entries = .ok parts ∧
      List.Forall₂ (EntryReadsBack readerLimit) parts (Value.untupledEntries entries) := by
  induction entries with
  | nil => exact ⟨[], rfl, .nil⟩
  | cons entry entries ih =>
    obtain ⟨key, value⟩ := entry
    obtain ⟨hkey, hnames⟩ := List.forall_mem_cons.mp hname
    obtain ⟨hfirst, hrest⟩ := List.forall_mem_cons.mp h
    obtain ⟨text, htext, hread⟩ := hfirst
    obtain ⟨parts, hparts, hreads⟩ := ih hnames hrest
    cases key with
    | str name =>
      refine ⟨entryText name text :: parts, ?_, .cons (.named hread) hreads⟩
      rw [writeEntries, writeKey, htext, hparts]
      rfl
    | _ => cases hkey

theorem map_fst_untupledEntries (entries : Entries) :
    (Value.untupledEntries entries).map Prod.fst = entries.map Prod.fst := by
  induction entries with
  | nil => rfl
  | cons entry entries ih =>
    rw [Value.untupledEntries, List.map_cons, List.map_cons, ih]

/-- A plain value is written, and what is written is read as the value with lists in place of its
tuples by every reader with a limit that is no stricter. -/
theorem exists_write {v : Value} (h : Plain limit v)
    (hlimits : ∀ digits, exceeds limit digits = false → exceeds readerLimit digits = false) :
    ∃ text, write (strictStyle limit) v = .ok text ∧ ReadsBack readerLimit text v.untupled := by
  induction h with
  | null =>
    have hread : ReadsBack readerLimit "null" .null := readsBack_word (by simp)
    exact ⟨"null", rfl, hread⟩
  | @bool b =>
    have hread : ReadsBack readerLimit (if b then "true" else "false") (.bool b) :=
      readsBack_word (by cases b <;> simp)
    exact ⟨_, rfl, hread⟩
  | @int n hn =>
    refine ⟨toString n, ?_, readsBack_int (hlimits _ hn)⟩
    rw [write, writeInt]
    exact if_neg (by simp [strictStyle, hn])
  | @str s => exact ⟨writeString true s, rfl, readsBack_str s⟩
  | list _ ih | tuple _ ih =>
    obtain ⟨parts, hparts, hreads⟩ := exists_writeItems ih
    refine ⟨Value.bracketed "[" "]" parts, ?_, readsBack_list hreads⟩
    rw [write, hparts]
    rfl
  | @dict entries hname hn _ ih =>
    obtain ⟨parts, hparts, hreads⟩ := exists_writeEntries hname ih
    refine ⟨Value.bracketed "\x7b" "\x7d" parts, ?_, readsBack_dict hreads ?_⟩
    · rw [write, hparts]
      rfl
    · rw [map_fst_untupledEntries]
      exact hn

theorem ReadsBack.readAll {text : String} {v : Value} (h : ReadsBack limit text v) :
    readAll limit text.toList = .ok v := by
  have hskip : skipBlank text.toList = text.toList := h.opens.skipBlank_eq
  have hread := h.read (2 * text.toList.length + 2) [] (by omega) numberEnds_nil
  rw [List.append_nil] at hread
  obtain ⟨c, more, htext, -⟩ := h.opens
  have hmark : c ≠ '\uFEFF' := by
    rintro rfl
    have hmem : '\uFEFF' ∈ text.toList := htext ▸ List.mem_cons_self ..
    exact absurd (h.ascii _ hmem) (by decide)
  unfold Json.readAll
  split
  · next heq => exact absurd (List.cons.inj (htext.symm.trans heq)).1 hmark
  · rw [hskip, hread]
    rfl

/-- A plain value is written in ASCII, and a reader has the value again. -/
theorem exists_write_readAll {v : Value} (h : Plain limit v)
    (hlimits : ∀ digits, exceeds limit digits = false → exceeds readerLimit digits = false) :
    ∃ text, write (strictStyle limit) v = .ok text ∧ Ascii text.toList ∧
      readAll readerLimit text.toList = .ok v.untupled := by
  obtain ⟨text, hwrite, hread⟩ := exists_write h hlimits
  exact ⟨text, hwrite, hread.ascii, hread.readAll⟩

end Written

end Json
end SchemaScribe
