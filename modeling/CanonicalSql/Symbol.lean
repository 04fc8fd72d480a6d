/-! The operators and the punctuation. -/

namespace CanonicalSql

/-- The tokens that are neither words nor literals. -/
inductive Symbol where
  | plus | minus | star | slash | percent
  | equal | doubleEqual | bangEqual | lessGreater
  | less | lessEqual | greater | greaterEqual | doubleBar
  | dot | comma | semicolon | leftParen | rightParen | leftBracket | rightBracket
  deriving DecidableEq

namespace Symbol

/-- How a symbol is written. -/
def text : Symbol → String
  | .plus => "+"
  | .minus => "-"
  | .star => "*"
  | .slash => "/"
  | .percent => "%"
  | .equal => "="
  | .doubleEqual => "=="
  | .bangEqual => "!="
  | .lessGreater => "<>"
  | .less => "<"
  | .lessEqual => "<="
  | .greater => ">"
  | .greaterEqual => ">="
  | .doubleBar => "||"
  | .dot => "."
  | .comma => ","
  | .semicolon => ";"
  | .leftParen => "("
  | .rightParen => ")"
  | .leftBracket => "["
  | .rightBracket => "]"

/-- The characters of a symbol. -/
def chars (s : Symbol) : List Char := s.text.toList

/-- Every symbol once, those of two characters first: the first one that begins a text is then the
longest one that does. -/
def longestFirst : List Symbol :=
  [.doubleEqual, .bangEqual, .lessGreater, .lessEqual, .greaterEqual, .doubleBar,
    .plus, .minus, .star, .slash, .percent, .equal, .less, .greater,
    .dot, .comma, .semicolon, .leftParen, .rightParen, .leftBracket, .rightBracket]

/-- The longest symbol at the front of a text. -/
def atFront? (cs : List Char) : Option Symbol :=
  longestFirst.find? fun s => s.chars.isPrefixOf cs

theorem chars_ne_nil (s : Symbol) : s.chars ≠ [] := by
  cases s <;> decide

/-- The symbol found at the front of a text is there. -/
theorem append_of_atFront? {cs : List Char} {s : Symbol} (h : atFront? cs = some s) :
    s.chars ++ cs.drop s.chars.length = cs := by
  have p := List.find?_some h
  rw [List.isPrefixOf_iff_prefix] at p
  exact List.prefix_iff_eq_append.1 p

end Symbol

end CanonicalSql
