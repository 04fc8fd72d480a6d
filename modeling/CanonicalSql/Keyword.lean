import CanonicalSql.Text.CharClass

/-! The reserved words.  A bare word spelled like one of them, in any mixture of capitals and small
letters, is that keyword and never a name. -/

namespace CanonicalSql

/-- The reserved words, each constructor spelled as the word is printed. -/
inductive Keyword where
  | ALIAS | ALL | ALTER | AND | AS | ASC | BETWEEN | BY | CASE | CAST | CHECK | COMMENT
  | CONSTRAINT | CREATE | CROSS | CURRENT | DEFAULT | DELETE | DESC | DISTINCT | DROP | ELSE
  | END | EXCEPT | EXISTS | FALSE | FOREIGN | FORMAT | FROM | FULL | GROUP | HAVING | ILIKE | IN
  | INNER | INSERT | INTERSECT | INTERVAL | INTO | IS | JOIN | LEFT | LIKE | LIMIT | MATERIALIZED
  | NOT | NULL | ON | OR | ORDER | OUTER | PRIMARY | RECURSIVE | REFERENCES | RIGHT | SELECT
  | SET | SETTINGS | TABLE | THEN | TRUE | UNBOUNDED | UNION | UNIQUE | UPDATE | USING | VALUES
  | WHEN | WHERE | WITH
  deriving DecidableEq

namespace Keyword

/-- The canonical spelling. -/
def text : Keyword → String
  | .ALIAS => "ALIAS"
  | .ALL => "ALL"
  | .ALTER => "ALTER"
  | .AND => "AND"
  | .AS => "AS"
  | .ASC => "ASC"
  | .BETWEEN => "BETWEEN"
  | .BY => "BY"
  | .CASE => "CASE"
  | .CAST => "CAST"
  | .CHECK => "CHECK"
  | .COMMENT => "COMMENT"
  | .CONSTRAINT => "CONSTRAINT"
  | .CREATE => "CREATE"
  | .CROSS => "CROSS"
  | .CURRENT => "CURRENT"
  | .DEFAULT => "DEFAULT"
  | .DELETE => "DELETE"
  | .DESC => "DESC"
  | .DISTINCT => "DISTINCT"
  | .DROP => "DROP"
  | .ELSE => "ELSE"
  | .END => "END"
  | .EXCEPT => "EXCEPT"
  | .EXISTS => "EXISTS"
  | .FALSE => "FALSE"
  | .FOREIGN => "FOREIGN"
  | .FORMAT => "FORMAT"
  | .FROM => "FROM"
  | .FULL => "FULL"
  | .GROUP => "GROUP"
  | .HAVING => "HAVING"
  | .ILIKE => "ILIKE"
  | .IN => "IN"
  | .INNER => "INNER"
  | .INSERT => "INSERT"
  | .INTERSECT => "INTERSECT"
  | .INTERVAL => "INTERVAL"
  | .INTO => "INTO"
  | .IS => "IS"
  | .JOIN => "JOIN"
  | .LEFT => "LEFT"
  | .LIKE => "LIKE"
  | .LIMIT => "LIMIT"
  | .MATERIALIZED => "MATERIALIZED"
  | .NOT => "NOT"
  | .NULL => "NULL"
  | .ON => "ON"
  | .OR => "OR"
  | .ORDER => "ORDER"
  | .OUTER => "OUTER"
  | .PRIMARY => "PRIMARY"
  | .RECURSIVE => "RECURSIVE"
  | .REFERENCES => "REFERENCES"
  | .RIGHT => "RIGHT"
  | .SELECT => "SELECT"
  | .SET => "SET"
  | .SETTINGS => "SETTINGS"
  | .TABLE => "TABLE"
  | .THEN => "THEN"
  | .TRUE => "TRUE"
  | .UNBOUNDED => "UNBOUNDED"
  | .UNION => "UNION"
  | .UNIQUE => "UNIQUE"
  | .UPDATE => "UPDATE"
  | .USING => "USING"
  | .VALUES => "VALUES"
  | .WHEN => "WHEN"
  | .WHERE => "WHERE"
  | .WITH => "WITH"

/-- Every reserved word once, in alphabetical order. -/
def all : List Keyword :=
  [.ALIAS, .ALL, .ALTER, .AND, .AS, .ASC, .BETWEEN, .BY, .CASE, .CAST, .CHECK, .COMMENT,
    .CONSTRAINT, .CREATE, .CROSS, .CURRENT, .DEFAULT, .DELETE, .DESC, .DISTINCT, .DROP, .ELSE,
    .END, .EXCEPT, .EXISTS, .FALSE, .FOREIGN, .FORMAT, .FROM, .FULL, .GROUP, .HAVING, .ILIKE,
    .IN, .INNER, .INSERT, .INTERSECT, .INTERVAL, .INTO, .IS, .JOIN, .LEFT, .LIKE, .LIMIT,
    .MATERIALIZED, .NOT, .NULL, .ON, .OR, .ORDER, .OUTER, .PRIMARY, .RECURSIVE, .REFERENCES,
    .RIGHT, .SELECT, .SET, .SETTINGS, .TABLE, .THEN, .TRUE, .UNBOUNDED, .UNION, .UNIQUE, .UPDATE,
    .USING, .VALUES, .WHEN, .WHERE, .WITH]

/-- The reserved word with the canonical spelling `spelling`, if there is one. -/
def ofText? (spelling : String) : Option Keyword := all.find? fun k => k.text == spelling

/-- The reserved word that `word` spells, if it spells one. -/
def ofWord? (word : String) : Option Keyword := ofText? (capitals word)

/-- Whether the keyword also names a function where `(` follows it. -/
def namesFunction (k : Keyword) : Bool := k = .LEFT || k = .RIGHT

theorem mem_all (k : Keyword) : k ∈ all := by
  cases k <;> decide

end Keyword

/-- Whether `word` spells a keyword that also names a function. -/
def isFunctionKeyword (word : String) : Bool := (Keyword.ofWord? word).any Keyword.namesFunction

end CanonicalSql
