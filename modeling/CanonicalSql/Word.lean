import CanonicalSql.Text.CharClass

/-! The contextual words: words that the grammar knows in certain places only.  They are not
reserved, so everywhere else they are names like any other. -/

namespace CanonicalSql

/-- The contextual words, each constructor spelled as the word is printed. -/
inductive Word where
  | ADD | AFTER | AST | BEGIN | CLUSTER | COLUMN | COMMIT | DATABASE | DATABASES | DESCRIBE
  | ENGINE | EXPLAIN | FINAL | FIRST | FOLLOWING | IF | INDEX | KEY | LAST | MODIFY | NULLS
  | OFFSET | OPTIMIZE | OVER | PARTITION | PIPELINE | PLAN | PRECEDING | RANGE | RENAME | REPLACE
  | ROLLBACK | ROW | ROWS | SHOW | SYNTAX | TABLES | TEMPORARY | TO | TRANSACTION | TRUNCATE
  | USE | VIEW
  deriving DecidableEq

namespace Word

/-- The canonical spelling. -/
def text : Word → String
  | .ADD => "ADD"
  | .AFTER => "AFTER"
  | .AST => "AST"
  | .BEGIN => "BEGIN"
  | .CLUSTER => "CLUSTER"
  | .COLUMN => "COLUMN"
  | .COMMIT => "COMMIT"
  | .DATABASE => "DATABASE"
  | .DATABASES => "DATABASES"
  | .DESCRIBE => "DESCRIBE"
  | .ENGINE => "ENGINE"
  | .EXPLAIN => "EXPLAIN"
  | .FINAL => "FINAL"
  | .FIRST => "FIRST"
  | .FOLLOWING => "FOLLOWING"
  | .IF => "IF"
  | .INDEX => "INDEX"
  | .KEY => "KEY"
  | .LAST => "LAST"
  | .MODIFY => "MODIFY"
  | .NULLS => "NULLS"
  | .OFFSET => "OFFSET"
  | .OPTIMIZE => "OPTIMIZE"
  | .OVER => "OVER"
  | .PARTITION => "PARTITION"
  | .PIPELINE => "PIPELINE"
  | .PLAN => "PLAN"
  | .PRECEDING => "PRECEDING"
  | .RANGE => "RANGE"
  | .RENAME => "RENAME"
  | .REPLACE => "REPLACE"
  | .ROLLBACK => "ROLLBACK"
  | .ROW => "ROW"
  | .ROWS => "ROWS"
  | .SHOW => "SHOW"
  | .SYNTAX => "SYNTAX"
  | .TABLES => "TABLES"
  | .TEMPORARY => "TEMPORARY"
  | .TO => "TO"
  | .TRANSACTION => "TRANSACTION"
  | .TRUNCATE => "TRUNCATE"
  | .USE => "USE"
  | .VIEW => "VIEW"

/-- Whether `name` spells the word, in any mixture of capitals and small letters. -/
def spelledBy (w : Word) (name : String) : Bool := capitals name == w.text

end Word

/-- Whether `name` is a word that gives the place of an added column. -/
def isColumnPlaceWord (name : String) : Bool :=
  Word.AFTER.spelledBy name || Word.FIRST.spelledBy name

end CanonicalSql
