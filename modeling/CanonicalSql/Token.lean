import CanonicalSql.Keyword
import CanonicalSql.Symbol
import CanonicalSql.Text.Position
import CanonicalSql.Word

/-! Tokens: what a piece of the source means, its exact text and its place. -/

namespace CanonicalSql

/-- What a token is, with the value that it carries. -/
inductive Token.Kind where
  /-- A number, kept as written. -/
  | number (text : String)
  /-- A string literal, its escapes resolved. -/
  | string (value : String)
  /-- A bare word that is not reserved. -/
  | ident (name : String)
  /-- A name between double quotes or backticks, its quotes resolved. -/
  | quotedIdent (name : String)
  /-- The parameter `?`. -/
  | question
  /-- A numbered parameter such as `?2`. -/
  | questionNumber (number : UInt32)
  /-- A parameter such as `:name`, without its sigil. -/
  | colonParam (name : String)
  /-- A parameter such as `$name`, without its sigil. -/
  | dollarParam (name : String)
  | symbol (symbol : Symbol)
  | keyword (keyword : Keyword)
  /-- The end of the source. -/
  | eof
  deriving DecidableEq

/-- A token with its exact text and the place of its first character. -/
structure Token where
  kind : Token.Kind
  text : String
  position : Position
  deriving DecidableEq

namespace Token

/-- The mark of the end of a source at `position`. -/
def endMark (position : Position) : Token := ⟨.eof, "", position⟩

/-- How messages name a token. -/
def describe (t : Token) : String :=
  match t.kind with
  | .eof => "end of input"
  | .number _ => "number " ++ t.text
  | .string _ => "string " ++ t.text
  | .ident _ | .quotedIdent _ => "identifier `" ++ t.text ++ "`"
  | .question | .questionNumber _ | .colonParam _ | .dollarParam _ => "parameter " ++ t.text
  | .keyword _ => "keyword " ++ capitals t.text
  | .symbol _ => "`" ++ t.text ++ "`"

end Token

end CanonicalSql
