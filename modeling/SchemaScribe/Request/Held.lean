import SchemaScribe.Value.Edit

/-! # Values as they are held

Two who hold a list or a dictionary may hold the same one: what one of them changes in it, the other
sees. So lists and dictionaries are numbered here, and those with one number are one. A tuple needs
no number, since nothing is put into it. A copy has new numbers throughout, and as many different
ones: what was one within the value is one within the copy.
-/
namespace SchemaScribe

/-- Is the value neither a list nor a tuple nor a dictionary? -/
def Value.isPlain : Value → Bool
  | .list _ | .tuple _ | .dict _ => false
  | _ => true

/-- A value inside which no other one is held. -/
structure Leaf where
  value : Value
  plain : value.isPlain = true

inductive Held where
  | leaf (leaf : Leaf)
  | tuple (items : List Held)
  | list (number : Nat) (items : List Held)
  | dict (number : Nat) (entries : List (Value × Held))

namespace Leaf

def null : Leaf := ⟨.null, rfl⟩

def str (s : String) : Leaf := ⟨.str s, rfl⟩

theorem isPlain_ofCodes (codes : List Nat) : (Value.ofCodes codes).isPlain = true := by
  unfold Value.ofCodes
  split <;> rfl

/-- The characters of a text and the numbers of octets, each a leaf again. -/
def items? (leaf : Leaf) : Option (List Leaf) :=
  match leaf.value with
  | .str s => some (s.toList.map fun c => ⟨.str c.toString, rfl⟩)
  | .torn text => some (text.codes.map fun code => ⟨.ofCodes [code], isPlain_ofCodes _⟩)
  | .bytes octets => some (octets.map fun octet => ⟨.int octet.toNat, rfl⟩)
  | _ => none

end Leaf

namespace Held

/-! ## Folds -/

section Fold
variable {α : Type} (leaf : Leaf → α) (tuple : List α → α) (list : Nat → List α → α)
  (dict : Nat → List (Value × α) → α)

mutual

def fold : Held → α
  | .leaf plain => leaf plain
  | .tuple items => tuple (foldItems items)
  | .list number items => list number (foldItems items)
  | .dict number entries => dict number (foldEntries entries)

def foldItems : List Held → List α
  | [] => []
  | item :: rest => fold item :: foldItems rest

def foldEntries : List (Value × Held) → List (Value × α)
  | [] => []
  | (key, held) :: rest => (key, fold held) :: foldEntries rest

end
end Fold

/-- The value that is held. -/
def value (held : Held) : Value := held.fold Leaf.value .tuple (fun _ => .list) fun _ => .dict

def values (entries : List (Value × Held)) : Entries :=
  entries.map fun entry => (entry.1, entry.2.value)

/-- The numbers of all lists and dictionaries in what is held. -/
def numbers (held : Held) : List Nat :=
  held.fold (fun _ => []) List.flatten (fun number items => number :: items.flatten)
    fun number entries => number :: (entries.map Prod.snd).flatten

/-- The first number that is larger than all in what is held. -/
def bound (held : Held) : Nat := held.numbers.foldr (fun number least => max (number + 1) least) 0

/-- What is held with every number moved up by so many. -/
def moved (places : Nat) (held : Held) : Held :=
  held.fold .leaf .tuple (fun number => .list (number + places)) fun number =>
    .dict (number + places)

/-- A change of one list or dictionary: its number, and what it is from then on. -/
structure Change where
  number : Nat
  form : Held

/-- What is held after a change, wherever the list or dictionary that was changed stands in it. -/
def changed (change : Change) (held : Held) : Held :=
  held.fold .leaf .tuple
    (fun number items => if number = change.number then change.form else .list number items)
    fun number entries => if number = change.number then change.form else .dict number entries

/-! ## New values -/

mutual

/-- A value whose lists and dictionaries are all new, with numbers from the first one on. -/
def ofValue (first : Nat) : Value → Held
  | .tuple items => .tuple (ofItems first items)
  | .list items => .list first (ofItems (first + 1) items)
  | .dict entries => .dict first (ofEntries (first + 1) entries)
  | .null => .leaf .null
  | .bool b => .leaf ⟨.bool b, rfl⟩
  | .int n => .leaf ⟨.int n, rfl⟩
  | .float x => .leaf ⟨.float x, rfl⟩
  | .str s => .leaf (.str s)
  | .torn text => .leaf ⟨.torn text, rfl⟩
  | .bytes octets => .leaf ⟨.bytes octets, rfl⟩
  | .set items => .leaf ⟨.set items, rfl⟩
  | .record name members => .leaf ⟨.record name members, rfl⟩
  | .foreign kind copyable => .leaf ⟨.foreign kind copyable, rfl⟩

def ofItems (first : Nat) : List Value → List Held
  | [] => []
  | item :: rest =>
    let held := ofValue first item
    held :: ofItems (first + held.numbers.length) rest

def ofEntries (first : Nat) : List (Value × Value) → List (Value × Held)
  | [] => []
  | (key, value) :: rest =>
    let held := ofValue first value
    (key, held) :: ofEntries (first + held.numbers.length) rest

end

/-! ## Paths -/

/-- What stands at one step inside what is held. -/
def part (step : Value) : Held → Except Value.PathFault Held
  | .list number items => (Value.itemAt (value (.list number items)) items step).map Prod.snd
  | .tuple items => (Value.itemAt (value (.tuple items)) items step).map Prod.snd
  | .dict _ entries =>
    if !step.hashable then .error .notAContainer
    else match Entries.value? entries step with
      | some held => .ok held
      | none => .error (.noKey step)
  | .leaf plain =>
    match plain.items? with
    | some items => (Value.itemAt plain.value items step).map fun found => .leaf found.2
    | none => .error .notAContainer

/-- The change that puts something new at the place that the step names. -/
def assign (step : Value) (new : Held) : Held → Except Value.PathFault Change
  | .list number items =>
    match step.index with
    | .error fault => .error fault
    | .ok index =>
      match Value.position? items.length index with
      | some i => .ok ⟨number, .list number (items.set i new)⟩
      | none => .error .noPlace
  | .dict number entries =>
    if step.hashable then .ok ⟨number, .dict number (Entries.put step new entries)⟩
    else .error .notAContainer
  | _ => .error .notAContainer

/-- The change that puts something new at the end of a path. -/
def edit (new : Held) : List Value → Held → Except Value.PathFault Change
  | [], _ => .error .noStep
  | [step], held => assign step new held
  | step :: next :: path, held => do edit new (next :: path) (← held.part step)

end Held
end SchemaScribe
