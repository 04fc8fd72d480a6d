import CanonicalSql.Parser.Definition

/-! Rules for the statements of a session, and for statements of every kind. -/

namespace CanonicalSql

open Keyword Word CanonicalSql.Symbol

namespace Grammar

open Parse

/-- The choice of a database. -/
def useDatabase : Parse Statement := do
  expect USE
  return .useDatabase (← identifier)

/-- A change of settings. -/
def changeSettings (g : Grammar) : Parse Statement := do
  expect SET
  return .changeSettings (← commaList g.setting)

/-- A listing. -/
def listing : Parse Listing := do
  expect SHOW
  if ← accept DATABASES then return .databases
  else if ← accept TABLES then
    let database ← optional FROM identifier
    return .tables database (← optional LIKE (stringLiteral .pattern))
  else if ← accept CREATE then
    expect TABLE
    return .createTable (← qualifiedName)
  else fail .listing

/-- The description of a table. -/
def describe : Parse Statement := do
  unless ← accept DESC do expect DESCRIBE
  discard (accept TABLE)
  return .describe (← qualifiedName)

/-- The stage that an explanation is about, if it is stated. -/
def explainStage : Parse (Option ExplainStage) := do
  if ← accept AST then return some .tree
  else if ← accept SYNTAX then return some .normalized
  else if ← accept PLAN then return some .plan
  else if ← accept PIPELINE then return some .pipeline
  else return none

/-- The explanation of another statement. -/
def explain (g : Grammar) : Parse Statement := do
  expect EXPLAIN
  let stage ← explainStage
  return .explain stage (← descend g.statement)

/-- The merging of a table's parts. -/
def optimize : Parse Optimize := do
  expect OPTIMIZE
  expect TABLE
  let table ← qualifiedName
  let cluster ← onCluster
  return ⟨table, cluster, ← accept FINAL⟩

/-- The statement `statement` about transactions, which its first word stands for. -/
def transaction (statement : Statement) : Parse Statement := do
  discard advance
  discard (accept TRANSACTION)
  return statement

/-- The contextual words that start statements. -/
def statementWords : List Word :=
  [TRUNCATE, RENAME, USE, SHOW, DESCRIBE, EXPLAIN, OPTIMIZE, BEGIN, COMMIT, ROLLBACK]

/-- The statement that the word `w` starts. -/
def wordStatement (g : Grammar) (w : Word) : Parse Statement := do
  match w with
  | TRUNCATE => return .truncate (← truncate)
  | RENAME => return .rename (← rename)
  | USE => useDatabase
  | SHOW => return .listing (← listing)
  | DESCRIBE => describe
  | EXPLAIN => g.explain
  | OPTIMIZE => return .optimize (← optimize)
  | BEGIN => transaction .begin
  | COMMIT => transaction .commit
  | ROLLBACK => transaction .rollback
  | _ => fail .statement

/-- A statement, as its first token tells what it is. -/
def statementRule (g : Grammar) : Parse Statement := do
  match ← peek with
  | .keyword SELECT | .keyword WITH | .symbol leftParen => return .select (← g.queryRule)
  | .keyword INSERT => return .insert (← g.insert)
  | .keyword UPDATE => return .update (← g.update)
  | .keyword DELETE => return .delete (← g.delete)
  | .keyword CREATE => g.create
  | .keyword ALTER => return .alterTable (← g.alterTable)
  | .keyword DROP => return .drop (← drop)
  | .keyword SET => g.changeSettings
  | .keyword DESC => describe
  | .ident name =>
    match statementWords.find? (·.spelledBy name) with
    | some w => g.wordStatement w
    | none => fail .statement
  | _ => fail .statement

/-- The grammar whose rules refer to `g` for what stands inside. -/
def step (g : Grammar) : Grammar where
  expr := g.exprRule
  query := g.queryRule
  body := g.bodyRule
  dataType := g.dataTypeRule
  statement := g.statementRule

/-- The grammar of constructs that hold at most `count` others of their kinds inside one another. -/
def upTo : (count : Nat) → Grammar
  | 0 => empty
  | count + 1 => step {
      expr level p := (upTo count).expr level p
      query p := (upTo count).query p
      body level p := (upTo count).body level p
      dataType p := (upTo count).dataType p
      statement p := (upTo count).statement p }

end Grammar

namespace Parse

/-- Runs a rule of the grammar.  A construct inside another starts at least one token behind the
start of the other, so no more constructs than tokens are inside one another. -/
def rule {α : Type} (x : Grammar → Parse α) : Parse α := do
  x (.upTo ((← remaining) + 1))

/-- An expression. -/
def expr : Parse Expr := rule fun g => g.anyExpr

/-- A statement, without the semicolon that ends it. -/
def statement : Parse Statement := rule fun g => g.statement

/-- Moves over at most `count` semicolons. -/
def skipSemicolons : (count : Nat) → Parse Unit
  | 0 => return ()
  | count + 1 => do if ← accept Symbol.semicolon then skipSemicolons count

/-- At most `count` statements up to the end.  A statement ends with a semicolon or with the source;
between statements there may be further semicolons. -/
def statementsWithin : (count : Nat) → Parse (List Statement)
  | 0 => return []
  | count + 1 => do
    skipSemicolons (← remaining)
    if ← atEnd then return []
    else
      let first ← statement
      unless (← accept Symbol.semicolon) || (← atEnd) do fail .statementEnd
      let others ← statementsWithin count
      return first :: others

/-- The statements up to the end.  Each takes a token at least. -/
def statements : Parse (List Statement) := do statementsWithin ((← remaining) + 1)

end Parse

end CanonicalSql
