import CanonicalSql.Lexeme
import CanonicalSql.Reserved
import CanonicalSql.Tree.Expr

/-! The pieces that printed text is made of.  A piece knows what it stands for, so a printed tree
can be read as a sequence of tokens as well as a sequence of characters. -/

namespace CanonicalSql

/-- Whether `name` can be printed without quotes: it is a word of ASCII characters and not
reserved.  Other letters are allowed in bare words, but names that have them are always quoted. -/
def isPlainName (name : String) : Bool :=
  match name.toList with
  | [] => false
  | c :: cs => isAsciiNameStart c && cs.all isAsciiNamePart && !isReserved name

/-- Whether `name` is a single word, reserved or not. -/
def isWord (name : String) : Bool :=
  match name.toList with
  | [] => false
  | c :: cs => isNameStart c && cs.all isNamePart

/-- The smallest parts of printed text. -/
inductive Piece where
  | space
  | lineEnd
  | keyword (keyword : Keyword)
  | word (word : Word)
  | symbol (symbol : Symbol)
  /-- A name, between quotes if it needs them. -/
  | name (name : String)
  /-- The name of a type, which is quoted also where it could be taken for the place of a
  column. -/
  | typeName (name : String)
  /-- The name of a function, which may be a keyword that names functions too. -/
  | functionName (name : String)
  /-- The name of an engine or a format, for which any word will do. -/
  | label (name : String)
  /-- The unit of an interval, as it is. -/
  | unit (unit : String)
  /-- A number, as it is. -/
  | number (text : String)
  | string (value : String)
  | placeholder (placeholder : Placeholder)

namespace Piece

instance : Coe Keyword Piece := ⟨.keyword⟩

instance : Coe Word Piece := ⟨.word⟩

instance : Coe Symbol Piece := ⟨.symbol⟩

/-- The characters of a name, between quotes unless it is `plain`. -/
def nameChars (plain : Bool) (name : String) : List Char :=
  if plain then name.toList else QuotedName.encode name.toList

/-- The characters of a parameter. -/
def placeholderChars : Placeholder → List Char
  | .anonymous => ['?']
  | .numbered n => '?' :: Nat.toDigits 10 n.toNat
  | .named n => ':' :: n.toList
  | .dollar n => '$' :: n.toList

/-- The characters of a piece. -/
def chars : Piece → List Char
  | .space => [' ']
  | .lineEnd => ['\n']
  | .keyword k => k.text.toList
  | .word w => w.text.toList
  | .symbol s => s.chars
  | .name n => nameChars (isPlainName n) n
  | .typeName n => nameChars (isPlainName n && !isColumnPlaceWord n) n
  | .functionName n => nameChars (isPlainName n || isFunctionKeyword n) n
  | .label n => nameChars (isPlainName n || isWord n) n
  | .unit u => u.toList
  | .number t => t.toList
  | .string v => StringLiteral.encode v.toList
  | .placeholder p => placeholderChars p

/-- The text of a sequence of pieces. -/
def text (pieces : List Piece) : String := String.ofList (pieces.flatMap chars)

/-- The pieces with a space between each two. -/
def phrase (pieces : List Piece) : List Piece := pieces.intersperse .space

@[simp] theorem phrase_nil : phrase [] = [] := rfl
@[simp] theorem phrase_singleton (p : Piece) : phrase [p] = [p] := rfl
@[simp] theorem phrase_cons_cons (p q : Piece) (ps : List Piece) :
    phrase (p :: q :: ps) = p :: .space :: phrase (q :: ps) := rfl

/-- Words in front of other text. -/
def ahead (pieces : List Piece) : List Piece := phrase pieces ++ [.space]

/-- Words behind other text. -/
def behind (pieces : List Piece) : List Piece := .space :: phrase pieces

/-- A piece between two operands. -/
def spaced (piece : Piece) : List Piece := [.space, piece, .space]

/-- The items with a comma and a space between each two. -/
def commas (items : List (List Piece)) : List Piece :=
  List.intercalate [.symbol .comma, .space] items

@[simp] theorem commas_nil : commas [] = [] := rfl

@[simp] theorem commas_singleton (item : List Piece) : commas [item] = item := by
  simp [commas, List.intercalate]

@[simp] theorem commas_cons_cons (item next : List Piece) (items : List (List Piece)) :
    commas (item :: next :: items) =
      item ++ .symbol .comma :: .space :: commas (next :: items) := by
  simp [commas, List.intercalate]

/-- The pieces between parentheses. -/
def parens (pieces : List Piece) : List Piece :=
  .symbol .leftParen :: pieces ++ [.symbol .rightParen]

/-- The pieces, between parentheses if `needed`. -/
def parensIf (needed : Bool) (pieces : List Piece) : List Piece :=
  if needed then parens pieces else pieces

/-- A clause behind other text: its head, word by word, and its body. -/
def clause (head body : List Piece) : List Piece :=
  behind head ++ .space :: body

/-- A list between parentheses, if it has items. -/
def optionalParens (items : List (List Piece)) : List Piece :=
  if items.isEmpty then [] else parens (commas items)

/-- A clause with a list for its body, if the list has items. -/
def listClause (head : List Piece) (items : List (List Piece)) : List Piece :=
  if items.isEmpty then [] else clause head (commas items)

/-- The words `pieces` and a space, if `present`. -/
def flag (present : Bool) (pieces : List Piece) : List Piece :=
  if present then ahead pieces else []

/-- Names with commas between them. -/
def names (ns : List String) : List Piece := commas (ns.map fun n => [.name n])

/-- A list of names between parentheses behind other text, if there are any. -/
def nameList (ns : List String) : List Piece :=
  if ns.isEmpty then [] else .space :: parens (names ns)

/-- The clause that gives something a name of its own. -/
def aliasClause : Option String → List Piece
  | none => []
  | some a => clause [.keyword .AS] [.name a]

end Piece

/-- The types whose values have a canonical text. -/
class Printed (α : Type) where
  /-- The canonical text, piece by piece. -/
  pieces : α → List Piece

/-- The canonical text of a value. -/
def sql {α : Type} [Printed α] (x : α) : String := Piece.text (Printed.pieces x)

end CanonicalSql
