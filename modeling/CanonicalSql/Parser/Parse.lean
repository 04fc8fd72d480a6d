import CanonicalSql.Cursor
import CanonicalSql.Parser.Error

/-! The state of a parse and the steps that every rule of the grammar is made of.  A step that fails
leaves the cursor where the failure was found, so a parser can be used again after an error. -/

namespace CanonicalSql

/-- A parser over a token vector: its cursor, the number of levels that are open, and the number of
levels that may be open. -/
structure Parser where
  cursor : Cursor
  depth : Nat
  limit : Nat
  deriving DecidableEq

/-- A step of a parse: it changes the parser, and gives a result or an error. -/
abbrev Parse (α : Type) : Type := EStateM ParseError Parser α

/-- A parser in a chain, and the number of links that have been added to the chain. -/
structure Linked where
  parser : Parser
  links : Nat
  deriving DecidableEq

/-- A step of a parse in a chain. -/
abbrev Chain (α : Type) : Type := EStateM ParseError Linked α

namespace Chain

/-- A step that adds no link. -/
def lift {α : Type} (x : Parse α) : Chain α := fun s =>
  match x s.parser with
  | .ok a p => .ok a { s with parser := p }
  | .error e p => .error e { s with parser := p }

/-- Adds a link, unless the levels are used up.  A link opens a level, which stays open until the chain is
closed. -/
def addLink : Chain Unit := fun s =>
  if s.parser.depth < s.parser.limit then
    .ok () ⟨{ s.parser with depth := s.parser.depth + 1 }, s.links + 1⟩
  else .error (.tooDeep s.parser.cursor.current.position s.parser.limit) s

end Chain

namespace Parse

/-- The current token. -/
def current : Parse Token := fun p => .ok p.cursor.current p

/-- The kind of the current token. -/
def peek : Parse Token.Kind := fun p => .ok p.cursor.current.kind p

/-- The kind of the token `n` places ahead. -/
def peekAt (n : Nat) : Parse Token.Kind := fun p => .ok (p.cursor.peekAt n).kind p

/-- Moves to the next token and gives the one that was left. -/
def advance : Parse Token := fun p => .ok p.cursor.current { p with cursor := p.cursor.advance }

/-- Whether the source is at its end. -/
def atEnd : Parse Bool := fun p => .ok p.cursor.atEnd p

/-- The number of tokens behind the current one. -/
def remaining : Parse Nat := fun p => .ok p.cursor.remaining p

/-- Fails at `token`, which need not be the current one. -/
def failAt {α : Type} (token : Token) (expected : Expectation) : Parse α := fun p =>
  .error (.unexpected token expected) p

/-- Fails at the current token. -/
def fail {α : Type} (expected : Expectation) : Parse α := fun p =>
  .error (.unexpected p.cursor.current expected) p

/-- Whether the current token is the terminal `t`. -/
def sees (t : Terminal) : Parse Bool := do return t.admits (← peek)

/-- Whether the token `n` places ahead is the terminal `t`. -/
def seesAt (n : Nat) (t : Terminal) : Parse Bool := do return t.admits (← peekAt n)

/-- Moves over the terminal `t`, if it is the current token, and tells whether it did. -/
def accept (t : Terminal) : Parse Bool := do
  if ← sees t then
    discard advance
    return true
  else
    return false

/-- Moves over the terminal `t`, which has to be the current token. -/
def expect (t : Terminal) : Parse Unit := do
  unless ← accept t do fail t

/-- Whether the terminals `ts` follow one another from the token `n` places ahead on. -/
def seesAllAt (n : Nat) : (ts : List Terminal) → Parse Bool
  | [] => return true
  | t :: ts => do if ← seesAt n t then seesAllAt (n + 1) ts else return false

/-- Moves over `count` tokens. -/
def skip : (count : Nat) → Parse Unit
  | 0 => return ()
  | count + 1 => do
    discard advance
    skip count

/-- Moves over the terminals `ts` if they follow one another from the current token on, and tells
whether they do; where only some of them do, it moves over none. -/
def acceptAll (ts : List Terminal) : Parse Bool := do
  if ← seesAllAt 0 ts then
    skip ts.length
    return true
  else
    return false

/-- Runs `x` one level deeper, unless the levels are used up.  The level is closed again however `x`
ends. -/
def descend {α : Type} (x : Parse α) : Parse α := fun p =>
  if p.depth < p.limit then
    match x { p with depth := p.depth + 1 } with
    | .ok a q => .ok a { q with depth := q.depth - 1 }
    | .error e q => .error e { q with depth := q.depth - 1 }
  else .error (.tooDeep p.cursor.current.position p.limit) p

/-- Runs a chain, which has no links at first.  The levels of its links are closed again all at once,
however it ends. -/
def leftChain {α : Type} (x : Chain α) : Parse α := fun p =>
  match x ⟨p, 0⟩ with
  | .ok a s => .ok a { s.parser with depth := s.parser.depth - s.links }
  | .error e s => .error e { s.parser with depth := s.parser.depth - s.links }

/-- At most `count` further items, each behind a comma. -/
def commaItems {α : Type} (item : Parse α) : (count : Nat) → Parse (List α)
  | 0 => return []
  | count + 1 => do
    if ← accept Symbol.comma then
      let first ← item
      let others ← commaItems item count
      return first :: others
    else return []

/-- Items with commas between them, at least one.  Each further item takes a comma, so there are no
more of them than tokens. -/
def commaList {α : Type} (item : Parse α) : Parse (List α) := do
  let first ← item
  let others ← commaItems item (← remaining)
  return first :: others

/-- What `x` gives, between parentheses. -/
def between {α : Type} (opening closing : Symbol) (x : Parse α) : Parse α := do
  expect opening
  let a ← x
  expect closing
  return a

/-- Items with commas between them up to the terminal `closing`, which is not taken; there may be
none. -/
def commaListUpTo {α : Type} (closing : Symbol) (item : Parse α) : Parse (List α) := do
  if ← sees closing then return [] else commaList item

/-- What `x` gives behind the terminal `t`; nothing where `t` does not follow. -/
def optional {α : Type} (t : Terminal) (x : Parse α) : Parse (Option α) := do
  if ← accept t then return some (← x) else return none

/-- The list that `x` gives behind the terminal `t`; the empty list where `t` does not follow. -/
def optionalList {α : Type} (t : Terminal) (x : Parse (List α)) : Parse (List α) := do
  if ← accept t then x else return []

end Parse

end CanonicalSql
