import Mathlib.Algebra.Order.Field.Power
import Mathlib.Algebra.Order.Field.Rat
import SchemaScribe.Value.Basic

/-! # Keys

Keys are the same if they have the same form, in which numbers of all kinds are places on the number
line. What is no number has none and is the same as nothing, not even itself, and so is a foreign
value. Entries that have no key twice are changed in one place when a value is put under a key.
-/
namespace SchemaScribe

namespace Binary64

/-- A place on the number line, or one of its ends. -/
inductive Place where
  | ending (negative : Bool)
  | point (x : ℚ)

def place? : Binary64 → Option Place
  | .nan => none
  | .infinite negative => some (.ending negative)
  | .finite negative mantissa exponent =>
    some (.point (signed negative mantissa * (2 : ℚ) ^ exponent))

/-- A mantissa that is brought to a smaller exponent keeps its value. -/
theorem aligned_mul_zpow (a : Int) {low e : Int} (h : low ≤ e) :
    ((a * Nat.pow 2 (e - low).toNat : Int) : ℚ) * 2 ^ low = a * 2 ^ e := by
  have hunit : (2 : ℚ) ^ (e - low).toNat * 2 ^ low = 2 ^ e := by
    rw [← zpow_natCast, ← zpow_add₀ two_ne_zero, Int.toNat_of_nonneg (Int.sub_nonneg_of_le h),
      sub_add_cancel]
  rw [← hunit, Nat.pow_eq]
  push_cast
  exact mul_assoc _ _ _

theorem alignedLess_iff (a e b f : Int) :
    alignedLess a e b f = true ↔ (a : ℚ) * 2 ^ e < b * 2 ^ f := by
  have hunit : (0 : ℚ) < 2 ^ min e f := zpow_pos two_pos _
  rw [alignedLess, decide_eq_true_iff, ← aligned_mul_zpow a (min_le_left e f),
    ← aligned_mul_zpow b (min_le_right e f), mul_lt_mul_iff_left₀ hunit, Int.cast_lt]

/-- Numbers are the same if they have the same place. -/
theorem same_iff {x y : Binary64} :
    x.same y = true ↔ ∃ p, x.place? = some p ∧ y.place? = some p := by
  cases x with
  | nan => simp [same, place?]
  | infinite a =>
    cases y with
    | nan => simp [same, place?]
    | infinite b => cases a <;> cases b <;> simp [same, less, place?]
    | finite b n f => cases a <;> simp [same, less, place?]
  | finite a m e =>
    cases y with
    | nan => simp [same, place?]
    | infinite b => cases b <;> simp [same, less, place?]
    | finite b n f =>
      simp only [same, less, place?, Bool.and_eq_true, Bool.not_eq_true', ← Bool.not_eq_true,
        alignedLess_iff, not_lt, Option.some.injEq, exists_eq_left', Place.point.injEq]
      constructor
      · exact fun h => le_antisymm h.1 h.2
      · exact fun h => ⟨h.le, h.ge⟩

end Binary64

namespace Value

def place? (v : Value) : Option Binary64.Place := v.number?.bind Binary64.place?

theorem sameNumber_iff {v w : Value} :
    sameNumber v w = true ↔ ∃ p, v.place? = some p ∧ w.place? = some p := by
  rw [sameNumber, place?, place?]
  cases v.number? with
  | none => simp
  | some x =>
    cases w.number? with
    | none => simp
    | some y => exact Binary64.same_iff

/-! ## Forms of keys -/

/-- What is left of a key when keys that are the same are not told apart. -/
inductive KeyForm where
  | null
  | number (place : Binary64.Place)
  | str (s : String)
  | torn (text : Text.Torn)
  | bytes (octets : List UInt8)
  | tuple (items : List KeyForm)
  | record (name : String) (members : List (String × KeyForm))

section
variable {α : Type}

/-- The forms of some items, if each has one. -/
def consForm? (first : Option α) (rest : Option (List α)) : Option (List α) :=
  first.bind fun form => rest.map (form :: ·)

theorem consForm?_ne_nil (first : Option α) (rest : Option (List α)) :
    consForm? first rest ≠ some [] := by
  cases first <;> simp [consForm?]

theorem consForm?_common {first first' : Option α} {rest rest' : Option (List α)} :
    (∃ forms, consForm? first rest = some forms ∧ consForm? first' rest' = some forms) ↔
      (∃ form, first = some form ∧ first' = some form) ∧
        ∃ forms, rest = some forms ∧ rest' = some forms := by
  cases first with
  | none => simp [consForm?]
  | some form =>
    cases first' with
    | none => simp [consForm?]
    | some form' =>
      cases rest with
      | none => simp [consForm?]
      | some forms => cases rest' <;> simp [consForm?]

theorem map_common {β γ : Type} {tag : β → α → γ}
    (hinj : ∀ {k l : β} {a b : α}, tag k a = tag l b → k = l ∧ a = b) {k l : β}
    {first other : Option α} :
    (∃ form, first.map (tag k) = some form ∧ other.map (tag l) = some form) ↔
      k = l ∧ ∃ form, first = some form ∧ other = some form := by
  simp only [Option.map_eq_some_iff]
  constructor
  · rintro ⟨_, ⟨form, h, rfl⟩, form', h', heq⟩
    obtain ⟨rfl, rfl⟩ := hinj heq
    exact ⟨rfl, form', h, h'⟩
  · rintro ⟨rfl, form, h, h'⟩
    exact ⟨_, ⟨form, h, rfl⟩, form, h', rfl⟩

end

mutual

def keyForm? : Value → Option KeyForm
  | .null => some .null
  | .bool b => (place? (.bool b)).map .number
  | .int n => (place? (.int n)).map .number
  | .float x => (place? (.float x)).map .number
  | .str s => some (.str s)
  | .torn text => some (.torn text)
  | .bytes octets => some (.bytes octets)
  | .tuple items => (keyForms? items).map .tuple
  | .record name members => (memberForms? members).map (.record name)
  | .list _ | .set _ | .dict _ | .foreign .. => none

def keyForms? : List Value → Option (List KeyForm)
  | [] => some []
  | x :: xs => consForm? (keyForm? x) (keyForms? xs)

def memberForms? : List (String × Value) → Option (List (String × KeyForm))
  | [] => some []
  | (k, v) :: xs => consForm? ((keyForm? v).map (k, ·)) (memberForms? xs)

end

mutual

/-- A key is the same as what has the same form. -/
theorem same_iff_keyForm {v w : Value} (hv : v.hashable = true) :
    v.same w = true ↔ ∃ form, v.keyForm? = some form ∧ w.keyForm? = some form := by
  match v with
  | .null | .foreign .. => cases w <;> simp [same, isNull, keyForm?]
  | .str s => rw [str_same_iff]; cases w <;> simp [keyForm?]
  | .torn _ =>
    cases w with
    | torn _ =>
      simp only [same, beq_iff_eq, keyForm?, Option.some.injEq, exists_eq_left',
        KeyForm.torn.injEq]
      exact eq_comm
    | _ => simp [same, keyForm?]
  | .bytes _ =>
    cases w with
    | bytes _ =>
      simp only [same, beq_iff_eq, keyForm?, Option.some.injEq, exists_eq_left',
        KeyForm.bytes.injEq]
      exact eq_comm
    | _ => simp [same, keyForm?]
  | .bool _ | .int _ | .float _ =>
    rw [same, sameNumber_iff]
    cases w <;> simp [keyForm?, place?, number?]
  | .tuple xs =>
    cases w with
    | tuple ys =>
      rw [same, sameItems_iff_keyForms hv]
      simp [keyForm?]
    | _ => simp [same, keyForm?]
  | .record n xs =>
    cases w with
    | record m ys =>
      rw [same, Bool.and_eq_true, beq_iff_eq, sameMembers_iff_memberForms hv, keyForm?, keyForm?,
        map_common KeyForm.record.inj]
    | _ => simp [same, keyForm?]
  | .list _ | .set _ | .dict _ => cases hv

theorem sameItems_iff_keyForms {xs ys : List Value} (hxs : allHashable xs = true) :
    sameItems xs ys = true ↔ ∃ forms, keyForms? xs = some forms ∧ keyForms? ys = some forms := by
  match xs, ys with
  | [], [] => simp [sameItems, keyForms?]
  | [], y :: ys => simp [sameItems, keyForms?, consForm?_ne_nil]
  | x :: xs, [] => simp [sameItems, keyForms?, consForm?_ne_nil]
  | x :: xs, y :: ys =>
    obtain ⟨hx, hxs⟩ := Bool.and_eq_true_iff.mp hxs
    rw [sameItems, Bool.and_eq_true, same_iff_keyForm hx, sameItems_iff_keyForms hxs, keyForms?,
      keyForms?, consForm?_common]

theorem sameMembers_iff_memberForms {xs ys : List (String × Value)}
    (hxs : membersHashable xs = true) :
    sameMembers xs ys = true ↔
      ∃ forms, memberForms? xs = some forms ∧ memberForms? ys = some forms := by
  match xs, ys with
  | [], [] => simp [sameMembers, memberForms?]
  | [], y :: ys => simp [sameMembers, memberForms?, consForm?_ne_nil]
  | x :: xs, [] => simp [sameMembers, memberForms?, consForm?_ne_nil]
  | (k, x) :: xs, (l, y) :: ys =>
    obtain ⟨hx, hxs⟩ := Bool.and_eq_true_iff.mp hxs
    rw [sameMembers, Bool.and_eq_true, Bool.and_eq_true, beq_iff_eq, same_iff_keyForm hx,
      sameMembers_iff_memberForms hxs, memberForms?, memberForms?, consForm?_common,
      map_common Prod.mk.inj]

end

/-- Keys that are the same as one and the same value are the same. -/
theorem same_of_common {a b c : Value} (ha : a.hashable = true) (hb : b.hashable = true)
    (hac : a.same c = true) (hbc : b.same c = true) : a.same b = true := by
  obtain ⟨form, hform, hcommon⟩ := (same_iff_keyForm ha).mp hac
  obtain ⟨form', hform', hcommon'⟩ := (same_iff_keyForm hb).mp hbc
  obtain rfl := Option.some.inj (hcommon.symm.trans hcommon')
  exact (same_iff_keyForm ha).mpr ⟨form, hform, hform'⟩

end Value

namespace Entries
variable {α : Type} {entries : List (Value × α)} {key : Value} {held : α}

/-- The keys can be keys, and no two of them are the same. -/
structure Keyed (entries : List (Value × α)) : Prop where
  hashable : ∀ entry ∈ entries, entry.1.hashable = true
  once : entries.Pairwise fun first second => first.1.same second.1 = false

theorem value?_eq_none_iff :
    value? entries key = none ↔ ∀ entry ∈ entries, entry.1.same key = false := by
  simp [value?]

theorem value?_cons (k : Value) (v : α) (key : Value) (rest : List (Value × α)) :
    value? ((k, v) :: rest) key = if k.same key then some v else value? rest key := by
  rw [value?, List.find?_cons]
  cases h : k.same key <;> simp [value?]

/-- A key that is not there yet is put at the end. -/
theorem put_of_none (h : value? entries key = none) (value : α) :
    put key value entries = entries ++ [(key, value)] := by
  induction entries with
  | nil => rfl
  | cons entry rest ih =>
    obtain ⟨hfirst, hrest⟩ := List.forall_mem_cons.mp (value?_eq_none_iff.mp h)
    rw [put, if_neg (by simp [hfirst]), ih (value?_eq_none_iff.mpr hrest)]
    rfl

/-- No entry behind one with the same key has that key. -/
theorem Keyed.others {entry : Value × α} (hk : Keyed (entry :: entries))
    (hentry : entry.1.same key = true) : ∀ other ∈ entries, other.1.same key = false := by
  obtain ⟨hhash, hhashes⟩ := List.forall_mem_cons.mp hk.hashable
  intro other hother
  by_contra hsame
  have htwice := Value.same_of_common hhash (hhashes other hother) hentry
    (Bool.eq_true_of_not_eq_false hsame)
  rw [(List.pairwise_cons.mp hk.once).1 other hother] at htwice
  exact Bool.false_ne_true htwice

theorem Keyed.tail {entry : Value × α} (hk : Keyed (entry :: entries)) : Keyed entries :=
  ⟨(List.forall_mem_cons.mp hk.hashable).2, (List.pairwise_cons.mp hk.once).2⟩

theorem map_of_held {held : Value × α → α} (h : ∀ entry ∈ entries, held entry = entry.2) :
    entries.map (fun entry => (entry.1, held entry)) = entries := by
  refine (List.map_congr_left fun entry hentry => ?_).trans (List.map_id entries)
  rw [h entry hentry]
  rfl

/-- A key that is there already keeps its form and its place. -/
theorem Keyed.put_of_some (hk : Keyed entries) (h : value? entries key = some held)
    (value : α) : put key value entries =
      entries.map fun entry => (entry.1, if entry.1.same key then value else entry.2) := by
  induction entries with
  | nil => exact absurd h (by simp [value?])
  | cons entry rest ih =>
    rw [put, List.map_cons]
    split
    · next hentry =>
      rw [map_of_held fun other hother => by simp [hk.others hentry other hother]]
    · next hentry =>
      rw [value?_cons, if_neg hentry] at h
      rw [ih hk.tail h]

theorem Keyed.put_eq (hk : Keyed entries) (key : Value) (value : α) : put key value entries =
    entries.map (fun entry => (entry.1, if entry.1.same key then value else entry.2)) ++
      if entries.any (·.1.same key) then [] else [(key, value)] := by
  cases hheld : value? entries key with
  | none =>
    have hapart := value?_eq_none_iff.mp hheld
    have hnew : (entries.any (·.1.same key)) = false :=
      List.any_eq_false.mpr fun entry hentry => by simp [hapart entry hentry]
    rw [put_of_none hheld, map_of_held fun entry hentry => by simp [hapart entry hentry], hnew,
      if_neg Bool.false_ne_true]
  | some held =>
    obtain ⟨entry, hfound, -⟩ := Option.map_eq_some_iff.mp hheld
    have hentry : entry.1.same key = true :=
      List.find?_some (p := fun entry : Value × α => entry.1.same key) hfound
    have hold : (entries.any (·.1.same key)) = true :=
      List.any_eq_true.mpr ⟨entry, List.mem_of_find?_eq_some hfound, hentry⟩
    rw [hk.put_of_some hheld, hold, if_pos rfl, List.append_nil]

/-- What a key holds is held by every entry with that key. -/
theorem Keyed.eq_held (hk : Keyed entries) (h : value? entries key = some held) :
    ∀ entry ∈ entries, entry.1.same key = true → entry.2 = held := by
  induction entries with
  | nil => simp
  | cons entry rest ih =>
    rw [value?_cons] at h
    rw [List.forall_mem_cons]
    split at h
    · next hentry =>
      refine ⟨fun _ => Option.some.inj h, fun other hother hsame => ?_⟩
      rw [hk.others hentry other hother] at hsame
      exact absurd hsame Bool.false_ne_true
    · next hentry => exact ⟨fun hsame => absurd hsame hentry, ih hk.tail h⟩

end Entries
end SchemaScribe
