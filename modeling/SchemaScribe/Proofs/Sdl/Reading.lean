import SchemaScribe.Proofs.Sdl.Token
import SchemaScribe.Proofs.Sdl.Declaration

/-! # Reading declarations

A reader that goes through the tokens of a schema once. It keeps the roots of the schema block and
the names of the declared object types, and passes over what stands between the braces of a type.
From these it tells the roots: those of the schema block if there is one, else the object types with
the conventional names.
-/
namespace SchemaScribe.Sdl

inductive Stage where
  | start
  | described
  | keyword (word : String)
  | named
  | listing (separator : Char)
  | listed (separator : Char)
  | inside (depth : Nat)
  | schema
  | roots
  | operation (word : String)
  | root (word : String)
deriving DecidableEq, Repr

structure Reading where
  stage : Stage
  roots : Option (List (String × String))
  objects : List String
deriving DecidableEq, Repr

def typeKeywords : List String := ["scalar", "type", "interface", "union", "enum", "input"]

def Reading.onKeyword (reading : Reading) : Token → Option Reading
  | .name word =>
    if word = "schema" then
      if reading.roots.isSome then none else some { reading with stage := .schema, roots := some [] }
    else if word ∈ typeKeywords then some { reading with stage := .keyword word }
    else none
  | _ => none

/-- A declaration begins with a description or a keyword. -/
def Reading.onStart (reading : Reading) : Token → Option Reading
  | .text _ => some { reading with stage := .described }
  | t => reading.onKeyword t

/-- Behind a header come the members between braces, or the next declaration. -/
def Reading.onMembers (reading : Reading) (t : Token) : Option Reading :=
  if t = .mark '\x7b' then some { reading with stage := .inside 0 } else reading.onStart t

def Reading.onInside (reading : Reading) (depth : Nat) (t : Token) : Option Reading :=
  if t = .mark '\x7b' then some { reading with stage := .inside (depth + 1) }
  else if t = .mark '\x7d' then
    some { reading with stage := match depth with | 0 => .start | depth + 1 => .inside depth }
  else some reading

def Reading.step (reading : Reading) (t : Token) : Option Reading :=
  match reading.stage with
  | .start => reading.onStart t
  | .described => reading.onKeyword t
  | .keyword word =>
    match t with
    | .name name =>
      some { reading with
        stage := .named
        objects := if word = "type" then reading.objects ++ [name] else reading.objects }
    | _ => none
  | .named =>
    if t = .name "implements" then some { reading with stage := .listing '&' }
    else if t = .mark '=' then some { reading with stage := .listing '|' }
    else reading.onMembers t
  | .listing separator =>
    match t with
    | .name _ => some { reading with stage := .listed separator }
    | _ => none
  | .listed separator =>
    if t = .mark separator then some { reading with stage := .listing separator }
    else reading.onMembers t
  | .inside depth => reading.onInside depth t
  | .schema => if t = .mark '\x7b' then some { reading with stage := .roots } else none
  | .roots =>
    match t with
    | .name word => some { reading with stage := .operation word }
    | t => if t = .mark '\x7d' then some { reading with stage := .start } else none
  | .operation word => if t = .mark ':' then some { reading with stage := .root word } else none
  | .root word =>
    match t with
    | .name name => some { reading with
        stage := .roots
        roots := reading.roots.map (· ++ [(word, name)]) }
    | _ => none

/-- May a declaration begin here, and so the text end? -/
def Stage.isReady : Stage → Bool
  | .start | .named | .listed _ => true
  | _ => false

/-- The operations with the names that are understood without a word. -/
def conventionalNames : List (String × String) :=
  [("query", "Query"), ("mutation", "Mutation"), ("subscription", "Subscription")]

/-- The type of an operation: from the schema block, or else by its name. -/
def Reading.rootOf (reading : Reading) (operation name : String) : Value :=
  match reading.roots with
  | some roots => ((roots.lookup operation).map Value.str).getD .null
  | none => if name ∈ reading.objects then .str name else .null

/-- The roots that a text tells. -/
def readRoots (text : String) : Option (List (String × Value)) := do
  let tokens ← lex text.toList
  let reading ← tokens.foldlM Reading.step { stage := .start, roots := none, objects := [] }
  if reading.stage.isReady then
    some (conventionalNames.map fun (operation, name) => (operation, reading.rootOf operation name))
  else none

/-! ## Reading a part of a text -/

/-- Whatever may follow, the text brings the reader from one reading to another. -/
def Takes (reading : Reading) (text : List Char) (Next : List Char → Prop) (result : Reading) :
    Prop :=
  ∃ tokens : List Token, (∀ r, Next r → lex (text ++ r) = (lex r).map (tokens ++ ·)) ∧
    tokens.foldlM Reading.step reading = some result

section
variable {reading next result : Reading} {text more : List Char} {Next Last : List Char → Prop}

theorem Takes.nil : Takes reading [] Next reading :=
  ⟨[], fun r _ => by simp, rfl⟩

theorem Takes.append (h : Takes reading text Next next) (h' : Takes next more Last result)
    (hnext : ∀ r, Last r → Next (more ++ r)) : Takes reading (text ++ more) Last result := by
  obtain ⟨tokens, hlex, hrun⟩ := h
  obtain ⟨tokens', hlex', hrun'⟩ := h'
  refine ⟨tokens ++ tokens', fun r hr => ?_, ?_⟩
  · rw [List.append_assoc, hlex _ (hnext r hr), hlex' r hr, Option.map_map]
    simp only [Function.comp_def, List.append_assoc]
  · rw [List.foldlM_append, hrun]
    exact hrun'

theorem Takes.weaken (h : Takes reading text Next result) (hlast : ∀ r, Last r → Next r) :
    Takes reading text Last result := by
  obtain ⟨tokens, hlex, hrun⟩ := h
  exact ⟨tokens, fun r hr => hlex r (hlast r hr), hrun⟩

/-- A token at the start, with all of its text. -/
theorem Takes.token {t : Token} (hstart : ∀ r, Next r → StartsWith (text ++ r) t r)
    (hstep : reading.step t = some result) : Takes reading text Next result :=
  ⟨[t], fun r hr => (hstart r hr).lex, by rw [List.foldlM_cons, hstep]; rfl⟩

theorem Takes.ignored {c : Char} (hc : isIgnored c = true) (h : Takes reading text Next result) :
    Takes reading (c :: text) Next result := by
  obtain ⟨tokens, hlex, hrun⟩ := h
  exact ⟨tokens, fun r hr => by rw [List.cons_append, lex_ignored hc, hlex r hr], hrun⟩

theorem Takes.mark {c : Char} (hc : isMark c = true) (hstep : reading.step (.mark c) = some next)
    (h : Takes next text Next result) : Takes reading (c :: text) Next result := by
  have hsmall : isNameStart c = false ∧ (c.isDigit || c == '-') = false := by
    simp only [isMark, List.contains_iff_mem, List.mem_cons, List.not_mem_nil, or_false] at hc
    rcases hc with rfl | rfl | rfl | rfl | rfl | rfl | rfl | rfl | rfl | rfl | rfl | rfl | rfl <;>
      decide
  have hone : Takes reading [c] (fun _ => True) next :=
    .token (fun r _ => .mark r hsmall.1 hsmall.2 hc) hstep
  exact hone.append h fun _ _ => trivial

theorem Takes.name {word : String} (hword : isName word.toList = true)
    (hstep : reading.step (.name word) = some next) (h : Takes next text Next result)
    (hnext : ∀ r, Next r → NameEnds (text ++ r)) :
    Takes reading (word.toList ++ text) Next result := by
  have hone : Takes reading word.toList NameEnds next := by
    refine .token (fun r hr => ?_) hstep
    obtain ⟨c, rest, hchars, hstart, hall⟩ := isName_cases hword
    obtain ⟨d, tail, hd, rfl⟩ := hr
    have hrest : ∀ e ∈ rest, isNameChar e = true := fun e he =>
      hall e (hchars ▸ List.mem_cons_of_mem c he)
    have hname := StartsWith.name (rest ++ d :: tail) hstart
    rw [List.takeWhile_append_of_pos hrest, List.dropWhile_append_of_pos hrest,
      List.takeWhile_cons_of_neg (by simp [hd]), List.dropWhile_cons_of_neg (by simp [hd]),
      List.append_nil, ← hchars, String.ofList_toList] at hname
    rw [hchars]
    exact hname
  exact hone.append h hnext

end
end SchemaScribe.Sdl
