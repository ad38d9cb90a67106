import SchemaScribe.Value.Basic

/-! # Changes inside a value

A value is changed at a path: indices into sequences and keys of dictionaries, the last of which
names the place that gets the new value. A dictionary may get a new key there; a list may not grow.
A path may lead through a tuple, but no item of it is replaced, and nothing inside a text or octets
is changed. A negative index counts from the end.
-/
namespace SchemaScribe.Value

inductive PathFault where
  | noStep
  | hugeIndex
  | noItem (sequence : Value)
  | noPlace
  | noKey (key : Value)
  | notAContainer

/-- No index is this large, and none is below the negative of it. -/
def indexBound : Int := Int.pow 2 63

/-- The whole number that a step into a sequence is. -/
def index : Value → Except PathFault Int
  | .int n => if -indexBound ≤ n ∧ n < indexBound then .ok n else .error .hugeIndex
  | .bool b => .ok (if b then 1 else 0)
  | _ => .error .notAContainer

def position? (length : Nat) (index : Int) : Option Nat :=
  let i := if index < 0 then index + length else index
  if 0 ≤ i ∧ i < length then some i.toNat else none

/-- The item of a sequence at an index, with its position. -/
def itemAt {α : Type} (sequence : Value) (items : List α) (step : Value) :
    Except PathFault (Nat × α) :=
  match step.index with
  | .error fault => .error fault
  | .ok index =>
    match (position? items.length index).bind fun i => (items[i]?).map fun item => (i, item) with
    | some found => .ok found
    | none => .error (.noItem sequence)

/-- Puts the new value at the place that the last step names. -/
def assign (step new : Value) : Value → Except PathFault Value
  | .list items =>
    match step.index with
    | .error fault => .error fault
    | .ok index =>
      match position? items.length index with
      | some i => .ok (.list (items.set i new))
      | none => .error .noPlace
  | .dict entries =>
    if step.hashable then .ok (.dict (Entries.put step new entries)) else .error .notAContainer
  | _ => .error .notAContainer

def edit (new : Value) : List Value → Value → Except PathFault Value
  | [], _ => .error .noStep
  | [step], target => assign step new target
  | step :: next :: path, target =>
    match target with
    | .list items => do
      let (i, item) ← itemAt target items step
      return .list (items.set i (← edit new (next :: path) item))
    | .tuple items => do
      let (i, item) ← itemAt target items step
      return .tuple (items.set i (← edit new (next :: path) item))
    | .dict entries =>
      if !step.hashable then .error .notAContainer
      else match Entries.value? entries step with
        | some inner => do return .dict (Entries.put step (← edit new (next :: path) inner) entries)
        | none => .error (.noKey step)
    | .str _ | .torn _ | .bytes _ => do
      let (_, item) ← itemAt target (target.items?.getD []) step
      let _ ← edit new (next :: path) item
      .error .notAContainer
    | _ => .error .notAContainer

end SchemaScribe.Value
