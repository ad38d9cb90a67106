import SchemaScribe.Value.Basic

/-! # Copies of values

A copy of a value is made all the way down: of every item, of the keys and of the values under them.
It is the same value, but shares nothing with the one it was made of. Where something in a value
cannot be copied, as a lock or an open file, there is no copy of the value either.
-/
namespace SchemaScribe.Value

mutual

/-- The word for the kind of the first thing in the value that cannot be copied. -/
def uncopyable? : Value → Option String
  | .list xs | .tuple xs | .set xs => uncopyableItem? xs
  | .dict es => uncopyablePair? es
  | .record _ ms => uncopyableMember? ms
  | .foreign kind copyable => if copyable then none else some kind
  | _ => none

def uncopyableItem? : List Value → Option String
  | [] => none
  | x :: xs => (uncopyable? x).or (uncopyableItem? xs)

def uncopyablePair? : List (Value × Value) → Option String
  | [] => none
  | (k, v) :: es => (uncopyable? k).or ((uncopyable? v).or (uncopyablePair? es))

def uncopyableMember? : List (String × Value) → Option String
  | [] => none
  | (_, v) :: ms => (uncopyable? v).or (uncopyableMember? ms)

end

/-- Something that cannot be copied, known by the word for its kind. -/
structure Uncopyable where
  kind : String
deriving DecidableEq, Repr

def Uncopyable.message (fault : Uncopyable) : String := "cannot pickle '" ++ fault.kind ++ "' object"

/-- A copy of the value, in which every list and every object is a new one. -/
def copy (v : Value) : Except Uncopyable Value :=
  match v.uncopyable? with
  | some kind => .error ⟨kind⟩
  | none => .ok v

end SchemaScribe.Value
