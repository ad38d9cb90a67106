import Mathlib.Algebra.Ring.Int.Defs
import Mathlib.Algebra.Ring.Nat
import SchemaScribe.Json.Writer

/-! # What cannot be written

Writing a value in the strict style fails for one reason only: somewhere inside it, at any depth,
stands a value that JSON has no form for, a key that is no text and has no text, or a whole number
with more digits than the limit.
-/
namespace SchemaScribe

theorem Numeral.digitCount_le_iff {n : Int} {count : Nat} (hcount : 0 < count) :
    digitCount n ≤ count ↔ n.natAbs < 10 ^ count :=
  Nat.length_toDigits_le_iff (by decide) hcount

namespace Json

/-- The whole numbers with too many digits are those that are too far from zero. -/
theorem exceeds_iff {limit : Nat} (hlimit : 0 < limit) {n : Int} :
    exceeds (some limit) (Numeral.digitCount n) = true ↔ 10 ^ limit ≤ n.natAbs := by
  rw [exceeds, Option.any_some, decide_eq_true_iff, ← Nat.not_le,
    Numeral.digitCount_le_iff hlimit, Nat.not_lt]

theorem exceeds_pow {limit : Nat} (hlimit : 0 < limit) :
    exceeds (some limit) (Numeral.digitCount (10 ^ limit)) = true := by
  rw [exceeds_iff hlimit, Int.natAbs_pow]
  exact Nat.le_refl _

section
variable (limit : Option Nat)

/-- A key that is a text, or has one: a whole number within the limit, a finite one, a truth value or
null. -/
def isWritableKey : Value → Bool
  | .null | .bool _ | .str _ | .torn _ => true
  | .int n => !exceeds limit (Numeral.digitCount n)
  | .float x => x.isFinite
  | _ => false

/-- Somewhere in the value stands what cannot be written. -/
inductive Blocked : Value → Prop
  | notFinite {x : Binary64} : x.isFinite = false → Blocked (.float x)
  | longInteger {n : Int} : exceeds limit (Numeral.digitCount n) = true → Blocked (.int n)
  | bytes {octets : List UInt8} : Blocked (.bytes octets)
  | set {items : List Value} : Blocked (.set items)
  | record {name : String} {members : List (String × Value)} : Blocked (.record name members)
  | foreign {kind : String} {copyable : Bool} : Blocked (.foreign kind copyable)
  | inList {items : List Value} {item : Value} : item ∈ items → Blocked item →
      Blocked (.list items)
  | inTuple {items : List Value} {item : Value} : item ∈ items → Blocked item →
      Blocked (.tuple items)
  | atKey {entries : Entries} {entry : Value × Value} : entry ∈ entries →
      isWritableKey limit entry.1 = false → Blocked (.dict entries)
  | inDict {entries : Entries} {entry : Value × Value} : entry ∈ entries → Blocked entry.2 →
      Blocked (.dict entries)

end

variable {limit : Option Nat}

theorem not_blocked_null : ¬ Blocked limit .null := by
  intro h
  cases h

theorem not_blocked_str (s : String) : ¬ Blocked limit (.str s) := by
  intro h
  cases h

theorem blocked_float_iff {x : Binary64} : Blocked limit (.float x) ↔ x.isFinite = false := by
  constructor
  · intro h
    cases h with
    | notFinite hx => exact hx
  · exact .notFinite

theorem blocked_int_iff {n : Int} :
    Blocked limit (.int n) ↔ exceeds limit (Numeral.digitCount n) = true := by
  constructor
  · intro h
    cases h with
    | longInteger hn => exact hn
  · exact .longInteger

theorem blocked_list_iff {items : List Value} :
    Blocked limit (.list items) ↔ ∃ item ∈ items, Blocked limit item := by
  constructor
  · intro h
    cases h with
    | inList hi hb => exact ⟨_, hi, hb⟩
  · rintro ⟨item, hi, hb⟩
    exact .inList hi hb

theorem blocked_tuple_iff {items : List Value} :
    Blocked limit (.tuple items) ↔ ∃ item ∈ items, Blocked limit item := by
  constructor
  · intro h
    cases h with
    | inTuple hi hb => exact ⟨_, hi, hb⟩
  · rintro ⟨item, hi, hb⟩
    exact .inTuple hi hb

theorem blocked_dict_iff {entries : Entries} :
    Blocked limit (.dict entries) ↔
      ∃ entry ∈ entries, isWritableKey limit entry.1 = false ∨ Blocked limit entry.2 := by
  constructor
  · intro h
    cases h with
    | atKey he hk => exact ⟨_, he, .inl hk⟩
    | inDict he hb => exact ⟨_, he, .inr hb⟩
  · rintro ⟨entry, he, hk | hb⟩
    · exact .atKey he hk
    · exact .inDict he hb

/-! ## Failing to write -/

def Fails {α : Type} (x : Except Unwritable α) : Prop := ∃ reason, x = .error reason

section Fails
variable {α β γ δ : Type}

@[simp] theorem not_fails_ok (a : α) : ¬ Fails (.ok a) := by
  rintro ⟨reason, h⟩
  cases h

@[simp] theorem fails_error (reason : Unwritable) : Fails (.error reason : Except Unwritable α) :=
  ⟨reason, rfl⟩

theorem fails_map {x : Except Unwritable α} {f : α → β} : Fails (x.map f) ↔ Fails x := by
  cases x with
  | ok a => simp [Except.map]
  | error reason => simp [Except.map]

/-- What is put together from two parts fails if one of them does. -/
theorem fails_pair {x : Except Unwritable α} {y : Except Unwritable β} {f : α → β → γ} :
    Fails (do return f (← x) (← y)) ↔ Fails x ∨ Fails y := by
  cases x with
  | error reason => simp [bind, Except.bind]
  | ok a =>
    cases y with
    | error reason => simp [bind, Except.bind]
    | ok b => simp [bind, Except.bind, pure, Except.pure]

/-- What is put together from three parts fails if one of them does. -/
theorem fails_triple {x : Except Unwritable α} {y : Except Unwritable β} {z : Except Unwritable γ}
    {f : α → β → γ → δ} :
    Fails (do return f (← x) (← y) (← z)) ↔ Fails x ∨ Fails y ∨ Fails z := by
  cases x with
  | error reason => simp [bind, Except.bind]
  | ok a =>
    have hrest : Fails (do return f a (← y) (← z)) ↔ Fails y ∨ Fails z := fails_pair
    simpa [bind, Except.bind] using hrest

end Fails

variable {style : Style}

theorem writeFloat_fails_iff (hs : style.finiteOnly = true) {x : Binary64} :
    Fails (writeFloat style x) ↔ x.isFinite = false := by
  unfold writeFloat
  cases hx : x.isFinite with
  | true => simp
  | false => simp [hs]

theorem writeInt_fails_iff {n : Int} :
    Fails (writeInt style n) ↔ exceeds style.digits (Numeral.digitCount n) = true := by
  unfold writeInt
  cases exceeds style.digits (Numeral.digitCount n) with
  | true => simp
  | false => simp

theorem writeKey_fails_iff (hs : style.finiteOnly = true) {key : Value} :
    Fails (writeKey style key) ↔ isWritableKey style.digits key = false := by
  cases key with
  | float x => exact fails_map.trans (writeFloat_fails_iff hs)
  | int n =>
    rw [isWritableKey, Bool.not_eq_false']
    exact fails_map.trans writeInt_fails_iff
  | _ => simp [writeKey, fails_map, keyText, isWritableKey]

mutual

/-- Writing a value in a strict style fails exactly if something in it cannot be written. -/
theorem write_fails_iff (hs : style.finiteOnly = true) : (v : Value) →
    (Fails (write style v) ↔ Blocked style.digits v)
  | .null | .bool _ | .str _ | .torn _ => by
    rw [write]
    constructor
    · intro h
      exact absurd h (not_fails_ok _)
    · intro h
      cases h
  | .int n => by
    rw [write, blocked_int_iff]
    exact writeInt_fails_iff
  | .float x => by
    rw [write, blocked_float_iff]
    exact writeFloat_fails_iff hs
  | .bytes _ => by
    rw [write]
    exact iff_of_true (fails_error _) .bytes
  | .set _ => by
    rw [write]
    exact iff_of_true (fails_error _) .set
  | .record _ _ => by
    rw [write]
    exact iff_of_true (fails_error _) .record
  | .foreign _ _ => by
    rw [write]
    exact iff_of_true (fails_error _) .foreign
  | .list items => by
    rw [write, fails_map, blocked_list_iff]
    exact writeItems_fails_iff hs items
  | .tuple items => by
    rw [write, fails_map, blocked_tuple_iff]
    exact writeItems_fails_iff hs items
  | .dict entries => by
    rw [write, fails_map, blocked_dict_iff]
    exact writeEntries_fails_iff hs entries

theorem writeItems_fails_iff (hs : style.finiteOnly = true) : (items : List Value) →
    (Fails (writeItems style items) ↔ ∃ item ∈ items, Blocked style.digits item)
  | [] => by simp [writeItems]
  | item :: items => by
    have hfirst := write_fails_iff hs item
    have hrest := writeItems_fails_iff hs items
    rw [writeItems, fails_pair, hfirst, hrest]
    simp only [List.mem_cons, exists_eq_or_imp]

theorem writeEntries_fails_iff (hs : style.finiteOnly = true) : (entries : Entries) →
    (Fails (writeEntries style entries) ↔ ∃ entry ∈ entries,
      isWritableKey style.digits entry.1 = false ∨ Blocked style.digits entry.2)
  | [] => by simp [writeEntries]
  | (key, value) :: entries => by
    have hkey : Fails (writeKey style key) ↔ isWritableKey style.digits key = false :=
      writeKey_fails_iff hs
    have hvalue := write_fails_iff hs value
    have hrest := writeEntries_fails_iff hs entries
    rw [writeEntries, fails_triple, hkey, hvalue, hrest]
    simp only [List.mem_cons, exists_eq_or_imp, or_assoc]

end

end Json
end SchemaScribe
