import CanonicalSql.Parser.Parse
import CanonicalSql.Tree.Name

/-! Rules for names and for the short phrases that go with them. -/

namespace CanonicalSql

open Keyword Word CanonicalSql.Symbol

/-- The name that a token of this kind writes, if it writes one. -/
def Token.Kind.name? : Token.Kind → Option String
  | .ident name | .quotedIdent name => some name
  | _ => none

namespace Parse

/-- A name. -/
def identifier : Parse String := do
  match (← peek).name? with
  | some name =>
    discard advance
    return name
  | none => fail .identifier

/-- A name of a table, view or index. -/
def qualifiedName : Parse QualifiedName := do
  let first ← identifier
  if ← accept dot then
    let second ← identifier
    return ⟨some first, second⟩
  else
    return .bare first

/-- The name of an engine or a format: a name, or a keyword as the source spells it. -/
def label (expected : Expectation) : Parse String := do
  let token ← current
  match token.kind with
  | .ident name | .quotedIdent name =>
    discard advance
    return name
  | .keyword _ =>
    discard advance
    return token.text
  | _ => fail expected

/-- A string literal. -/
def stringLiteral (expected : Expectation) : Parse String := do
  match ← peek with
  | .string value =>
    discard advance
    return value
  | _ => fail expected

/-- A name for what stands before it, with or without `AS`, if there is one. -/
def aliasName : Parse (Option String) := do
  if ← accept AS then
    return some (← identifier)
  else if (← peek).name?.isSome then
    return some (← identifier)
  else
    return none

/-- Names between parentheses. -/
def nameList : Parse (List String) := between leftParen rightParen (commaList identifier)

/-- Names between parentheses, if there are any. -/
def optionalNameList : Parse (List String) := do
  if ← sees leftParen then nameList else return []

/-- Whether an object may exist already. -/
def ifNotExists : Parse Bool := acceptAll [IF, NOT, EXISTS]

/-- Whether an object may be missing. -/
def ifExists : Parse Bool := acceptAll [IF, EXISTS]

/-- The cluster that a statement runs on, if it names one. -/
def onCluster : Parse (Option String) := do
  if ← acceptAll [ON, CLUSTER] then return some (← identifier) else return none

end Parse

end CanonicalSql
