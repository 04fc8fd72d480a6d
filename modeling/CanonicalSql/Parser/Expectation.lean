import CanonicalSql.Keyword
import CanonicalSql.Symbol
import CanonicalSql.Token
import CanonicalSql.Word

/-! What the grammar asks for at a place of the source, and the words in which messages say so. -/

namespace CanonicalSql

/-- The tokens that the grammar asks for by their spelling. -/
inductive Terminal where
  | keyword (keyword : Keyword)
  | word (word : Word)
  | symbol (symbol : Symbol)
  deriving DecidableEq

namespace Terminal

instance : Coe Keyword Terminal := ⟨.keyword⟩

instance : Coe Word Terminal := ⟨.word⟩

instance : Coe Symbol Terminal := ⟨.symbol⟩

/-- Whether a token is the terminal.  A contextual word has to be written bare. -/
def admits : Terminal → Token.Kind → Bool
  | .keyword k, .keyword k' => k = k'
  | .word w, .ident name => w.spelledBy name
  | .symbol s, .symbol s' => s = s'
  | _, _ => false

/-- How messages name the terminal. -/
def describe : Terminal → String
  | .keyword k => k.text
  | .word w => w.text
  | .symbol s => "`" ++ s.text ++ "`"

end Terminal

/-- What was expected where something else was found. -/
inductive Expectation where
  | terminal (terminal : Terminal)
  | statement
  | statementEnd
  | expression
  | expressionEnd
  | identifier
  | dataType
  | typeArgument
  | intervalUnit
  | caseArm
  | frameDirection
  | queryBody
  | subquery
  | relation
  | joinCondition
  | nullsPlace
  | formatName
  | insertSource
  | newObject
  | replacedObject
  | tableContents
  | constraintKind
  | engineName
  | comment
  | alterAction
  | alteredPart
  | droppedObject
  | listing
  | pattern
  deriving DecidableEq

instance : Coe Terminal Expectation := ⟨.terminal⟩

/-- How messages name what was expected. -/
def Expectation.describe : Expectation → String
  | .terminal t => t.describe
  | .statement => "statement"
  | .statementEnd => "';' or end of input"
  | .expression => "expression"
  | .expressionEnd => "end of expression"
  | .identifier => "identifier"
  | .dataType => "data type"
  | .typeArgument => "type argument"
  | .intervalUnit => "interval unit"
  | .caseArm => "WHEN"
  | .frameDirection => "PRECEDING or FOLLOWING"
  | .queryBody => "SELECT or `(`"
  | .subquery => "subquery"
  | .relation => "table name, table function or subquery"
  | .joinCondition => "ON or USING"
  | .nullsPlace => "FIRST or LAST"
  | .formatName => "format name"
  | .insertSource => "VALUES or query"
  | .newObject => "TABLE, VIEW, INDEX or DATABASE"
  | .replacedObject => "TABLE or VIEW"
  | .tableContents => "column list or AS query"
  | .constraintKind => "PRIMARY KEY, UNIQUE, CHECK or FOREIGN KEY"
  | .engineName => "engine name"
  | .comment => "comment string"
  | .alterAction => "ALTER action"
  | .alteredPart => "COLUMN or CONSTRAINT"
  | .droppedObject => "TABLE, VIEW, DATABASE or INDEX"
  | .listing => "DATABASES, TABLES or CREATE"
  | .pattern => "pattern string"

end CanonicalSql
