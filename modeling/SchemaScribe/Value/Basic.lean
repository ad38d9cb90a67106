import SchemaScribe.Decimal.Binary64
import SchemaScribe.Text.Torn

/-! # Values

What a server sends and what a caller hands over: the values of JSON, and beside them torn texts, octets,
tuples, sets, dictionaries with keys of any kind, records with named members, and foreign values, of
which nothing is known but the word for their kind and whether they can be copied. Entries of a
dictionary keep the order in which their keys came first.
-/
namespace SchemaScribe

inductive Value where
  | null
  | bool (b : Bool)
  | int (n : Int)
  | float (x : Binary64)
  | str (s : String)
  | torn (text : Text.Torn)
  | bytes (octets : List UInt8)
  | list (items : List Value)
  | tuple (items : List Value)
  | set (items : List Value)
  | dict (entries : List (Value × Value))
  | record (name : String) (members : List (String × Value))
  | foreign (kind : String) (copyable : Bool)
deriving Inhabited, Repr

abbrev Entries := List (Value × Value)

namespace Value

/-- The value of a truth value, a whole number or a decimal one on the number line. -/
def number? : Value → Option Binary64
  | .bool b => some (Binary64.ofIntExact (if b then 1 else 0))
  | .int n => some (Binary64.ofIntExact n)
  | .float x => some x
  | _ => none

def sameNumber (v w : Value) : Bool :=
  match v.number?, w.number? with
  | some x, some y => x.same y
  | _, _ => false

def isNull : Value → Bool
  | .null => true
  | _ => false

mutual

/-- Equality as keys are compared: numbers by what they count, `true` as one, sequences item by
item, dictionaries by their entries in any order. A foreign value equals nothing. -/
def same (v w : Value) : Bool :=
  match v with
  | .null => w.isNull
  | .bool b => sameNumber (.bool b) w
  | .int n => sameNumber (.int n) w
  | .float x => sameNumber (.float x) w
  | .str s => match w with | .str t => s == t | _ => false
  | .torn s => match w with | .torn t => s == t | _ => false
  | .bytes s => match w with | .bytes t => s == t | _ => false
  | .list xs => match w with | .list ys => sameItems xs ys | _ => false
  | .tuple xs => match w with | .tuple ys => sameItems xs ys | _ => false
  | .set xs => match w with | .set ys => xs.length == ys.length && allAmong xs ys | _ => false
  | .dict xs => match w with | .dict ys => xs.length == ys.length && allEntries xs ys | _ => false
  | .record n xs => match w with | .record m ys => n == m && sameMembers xs ys | _ => false
  | .foreign .. => false
termination_by structural v

def sameItems (xs ys : List Value) : Bool :=
  match xs, ys with
  | [], [] => true
  | x :: xs, y :: ys => same x y && sameItems xs ys
  | _, _ => false
termination_by structural xs

def allAmong (xs ys : List Value) : Bool :=
  match xs with
  | [] => true
  | x :: xs => ys.any (same x) && allAmong xs ys
termination_by structural xs

def allEntries (xs ys : List (Value × Value)) : Bool :=
  match xs with
  | [] => true
  | (k, v) :: xs => ys.any (fun entry => same k entry.1 && same v entry.2) && allEntries xs ys
termination_by structural xs

def sameMembers (xs ys : List (String × Value)) : Bool :=
  match xs, ys with
  | [], [] => true
  | (k, v) :: xs, (l, w) :: ys => k == l && same v w && sameMembers xs ys
  | _, _ => false
termination_by structural xs

end

@[simp] theorem same_str (s t : String) : same (.str s) (.str t) = (s == t) := by
  simp [same]

theorem str_same_iff {s : String} {v : Value} : (str s).same v = true ↔ v = .str s := by
  cases v with
  | str t =>
    rw [same_str, beq_iff_eq, Value.str.injEq]
    exact eq_comm
  | _ => simp [same]

theorem same_str_iff {v : Value} {s : String} : v.same (.str s) = true ↔ v = .str s := by
  cases v <;> simp [same, sameNumber, number?, isNull]

mutual

/-- May the value be a key of a dictionary or a member of a set? -/
def hashable : Value → Bool
  | .list _ | .set _ | .dict _ => false
  | .tuple xs => allHashable xs
  | .record _ ms => membersHashable ms
  | _ => true

def allHashable : List Value → Bool
  | [] => true
  | x :: xs => hashable x && allHashable xs

def membersHashable : List (String × Value) → Bool
  | [] => true
  | (_, v) :: ms => hashable v && membersHashable ms

end

/-- A value counts as true unless it is null, zero or empty. -/
def truthy : Value → Bool
  | .null => false
  | .bool b => b
  | .int n => n != 0
  | .float x => !x.isZero
  | .str s => s != ""
  | .bytes s => !s.isEmpty
  | .list xs | .tuple xs | .set xs => !xs.isEmpty
  | .dict es => !es.isEmpty
  | .torn _ | .record .. | .foreign .. => true

def isText : Value → Bool
  | .str _ => true
  | _ => false

/-- Is it a text, torn or not? -/
def isString : Value → Bool
  | .str _ | .torn _ => true
  | _ => false

/-- A text up to the first half that stands alone. -/
def front? : Value → Option String
  | .str s => some s
  | .torn text => some text.front
  | _ => none

/-- The numbers of the characters and halves of a text. -/
def codes? : Value → Option (List Nat)
  | .str s => some (s.toList.map Char.toNat)
  | .torn text => some text.codes
  | _ => none

/-- The text of characters and halves with these numbers. -/
def ofCodes (codes : List Nat) : Value :=
  match Text.segments codes with
  | (front, []) => .str (String.ofList front)
  | (front, (half, behind) :: more) =>
    .torn { front := String.ofList front, half, behind := String.ofList behind
            more := more.map fun (half, behind) => (half, String.ofList behind) }

theorem ofCodes_map_toNat (text : List Char) :
    ofCodes (text.map Char.toNat) = .str (String.ofList text) := by
  rw [ofCodes, Text.segments_map_toNat]

def isDict : Value → Bool
  | .dict _ => true
  | _ => false

def lookup (key : String) : Entries → Option Value
  | [] => none
  | (.str k, v) :: rest => if k = key then some v else lookup key rest
  | _ :: rest => lookup key rest

/-- The member of an object; null where there is none, and for what is no object. -/
def member (key : String) : Value → Value
  | .dict entries => (lookup key entries).getD .null
  | _ => .null

def recordMember? (key : String) : Value → Option Value
  | .record _ members => members.lookup key
  | _ => none

/-- What is met when a value is walked through: the items of a sequence, the characters of a text,
the octets, the keys of a dictionary. -/
def items? : Value → Option (List Value)
  | .str s => some (s.toList.map fun c => .str c.toString)
  | .torn text => some (text.codes.map fun code => ofCodes [code])
  | .bytes octets => some (octets.map fun octet => .int octet.toNat)
  | .list xs | .tuple xs | .set xs => some xs
  | .dict es => some (es.map Prod.fst)
  | _ => none

end Value

namespace Entries
variable {α : Type}

def value? (entries : List (Value × α)) (key : Value) : Option α :=
  (List.find? (fun entry => entry.1.same key) entries).map Prod.snd

/-- Puts a value under a key. An equal key keeps its place and its form. -/
def put (key : Value) (value : α) : List (Value × α) → List (Value × α)
  | [] => [(key, value)]
  | (k, v) :: rest => if k.same key then (k, value) :: rest else (k, v) :: put key value rest

def ofList (entries : List (Value × Value)) : Entries :=
  entries.foldl (fun done entry => put entry.1 entry.2 done) []

@[simp] theorem put_nil (key : Value) (value : α) : put key value [] = [(key, value)] := rfl

end Entries

namespace Value

/-- The values without those that an earlier one is the same as. -/
def distinctBy (same : Value → Value → Bool) (items : List Value) : List Value :=
  let add (done : List Value) (x : Value) : List Value :=
    if done.any (same · x) then done else x :: done
  (items.foldl add []).reverse

def numberLess (v w : Value) : Bool :=
  match v.number?, w.number? with
  | some x, some y => x.less y
  | _, _ => false

/-- The set of values: of equal ones the first stays, and numbers are in ascending order. -/
def setOf (items : List Value) : Value :=
  let members := distinctBy same items
  .set (if members.all (·.number?.isSome) then members.mergeSort fun v w => !numberLess w v
    else members)

def isNaN : Value → Bool
  | .float .nan => true
  | _ => false

/-- Equality of what a document holds. There the value that is not a number is always the same one,
though it equals nothing. -/
def sameInDocument (v w : Value) : Bool := v.same w || (v.isNaN && w.isNaN)

end Value

namespace Entries

/-- Puts a value under a key, where both come from one document. -/
def putInDocument (key value : Value) : Entries → Entries
  | [] => [(key, value)]
  | (k, v) :: rest =>
    if k.sameInDocument key then (k, value) :: rest else (k, v) :: putInDocument key value rest

def ofDocument (entries : List (Value × Value)) : Entries :=
  entries.foldl (fun done entry => putInDocument entry.1 entry.2 done) []

end Entries

end SchemaScribe
