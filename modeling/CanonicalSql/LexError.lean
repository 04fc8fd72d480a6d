import CanonicalSql.Text.CharLiteral
import CanonicalSql.Text.Position

/-! What can be wrong with a text before it is looked at as tokens. -/

namespace CanonicalSql

/-- The faults of a text. -/
inductive LexFault where
  /-- No token starts with the character. -/
  | unexpectedCharacter (c : Char)
  | unterminatedString
  | unterminatedName
  | unterminatedComment
  /-- The digits of a numbered parameter write zero or more than 32 bits hold. -/
  | invalidPlaceholder (digits : String)
  deriving DecidableEq

/-- How messages name a fault. -/
def LexFault.describe : LexFault → String
  | .unexpectedCharacter c => "unexpected character " ++ charLiteral c
  | .unterminatedString => "unterminated string literal"
  | .unterminatedName => "unterminated quoted identifier"
  | .unterminatedComment => "unterminated block comment"
  | .invalidPlaceholder digits => "invalid placeholder number `" ++ digits ++ "`"

/-- A fault and the place where the faulty token or comment starts. -/
structure LexError where
  fault : LexFault
  position : Position
  deriving DecidableEq

/-- The text of a lexical error. -/
def LexError.message (e : LexError) : String :=
  e.fault.describe ++ " at " ++ e.position.describe

end CanonicalSql
