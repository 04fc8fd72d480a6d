import CanonicalSql.Text.GraphemeExtend
import CanonicalSql.Text.Unprintable

/-! A single character as messages show it: between single quotes, and as an escape where the bare
character would be invisible or ambiguous. -/

namespace CanonicalSql

/-- The character `c` between the quotes of its literal.  A character that leaves no mark of its
own, or that combines with the quote before it, is given by its code point. -/
def escapeChar (c : Char) : String :=
  if c = '\x00' then "\\0"
  else if c = '\t' then "\\t"
  else if c = '\r' then "\\r"
  else if c = '\n' then "\\n"
  else if c = '\'' then "\\'"
  else if c = '\\' then "\\\\"
  else if isGraphemeExtend c || isUnprintable c then
    "\\u\x7b" ++ String.ofList (Nat.toDigits 16 c.toNat) ++ "\x7d"
  else c.toString

/-- The literal of the character `c`. -/
def charLiteral (c : Char) : String := "'" ++ escapeChar c ++ "'"

end CanonicalSql
