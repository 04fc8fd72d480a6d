import CanonicalSql.LexError
import CanonicalSql.Lexeme.Comment
import CanonicalSql.Lexeme.Enclosed
import CanonicalSql.Lexeme.Number
import CanonicalSql.Token

/-! Lexemes: the pieces that a text falls into, one after the other.  A piece is a token, a piece of
layout between tokens, or a fault. -/

namespace CanonicalSql

/-- What a piece of a text is. -/
inductive Lexeme.Content where
  /-- A blank or a comment. -/
  | layout
  | token (kind : Token.Kind)
  | fault (fault : LexFault)
  /-- Nothing: the text has ended. -/
  | finish

/-- The piece at the front of a text: what it is, its characters, and the characters behind it.  The
characters of a fault are those that its reader passed over. -/
structure Lexeme where
  content : Lexeme.Content
  text : List Char
  rest : List Char

namespace Lexeme

/-- A line comment, from behind its two dashes. -/
def lineComment (cs : List Char) : Lexeme :=
  ⟨.layout, '-' :: '-' :: cs.takeWhile (· != '\n'), cs.dropWhile (· != '\n')⟩

/-- A block comment, from behind its opening delimiter. -/
def blockComment (cs : List Char) : Lexeme :=
  let comment := BlockComment.scan 1 cs
  ⟨if comment.closed then .layout else .fault .unterminatedComment,
    '/' :: '*' :: comment.read, comment.rest⟩

/-- A string literal, from behind its opening quote. -/
def string (cs : List Char) : Lexeme :=
  match StringLiteral.read? cs with
  | some e => ⟨.token (.string (String.ofList e.value)), '\'' :: e.read, e.rest⟩
  | none => ⟨.fault .unterminatedString, '\'' :: cs, []⟩

/-- A name between two of `quote`, from behind the first. -/
def quotedName (quote : Char) (cs : List Char) : Lexeme :=
  match QuotedName.read? quote cs with
  | some e => ⟨.token (.quotedIdent (String.ofList e.value)), quote :: e.read, e.rest⟩
  | none => ⟨.fault .unterminatedName, quote :: cs, []⟩

/-- The number at the front. -/
def number (cs : List Char) : Lexeme :=
  let (text, rest) := Number.split cs
  ⟨.token (.number (String.ofList text)), text, rest⟩

/-- What a bare word is: a keyword if it is reserved, and otherwise a name. -/
def wordKind (word : String) : Token.Kind :=
  match Keyword.ofWord? word with
  | some k => .keyword k
  | none => .ident word

/-- The word at the front. -/
def word (cs : List Char) : Lexeme :=
  let text := cs.takeWhile isNamePart
  ⟨.token (wordKind (String.ofList text)), text, cs.dropWhile isNamePart⟩

/-- What `?` and the digits behind it are.  Parameters are numbered from one, in 32 bits. -/
def questionContent (digits : List Char) : Content :=
  if digits.isEmpty then .token .question
  else
    let number := decimalValue digits
    if 0 < number && number < UInt32.size then .token (.questionNumber (UInt32.ofNat number))
    else .fault (.invalidPlaceholder (String.ofList digits))

/-- A parameter without a name, from behind its question mark. -/
def question (cs : List Char) : Lexeme :=
  let digits := cs.takeWhile Char.isDigit
  ⟨questionContent digits, '?' :: digits, cs.dropWhile Char.isDigit⟩

/-- A character that starts no token: nothing is passed over. -/
def unexpected (c : Char) (cs : List Char) : Lexeme :=
  ⟨.fault (.unexpectedCharacter c), [], c :: cs⟩

/-- A named parameter, from behind its sigil; a sigil without a name starts no token. -/
def namedParameter (sigil : Char) (kind : String → Token.Kind) (cs : List Char) : Lexeme :=
  let name := cs.takeWhile isNamePart
  if name.isEmpty then unexpected sigil cs
  else ⟨.token (kind (String.ofList name)), sigil :: name, cs.dropWhile isNamePart⟩

/-- The symbol that starts with `c`, if one does. -/
def symbol (c : Char) (cs : List Char) : Lexeme :=
  match Symbol.atFront? (c :: cs) with
  | some s => ⟨.token (.symbol s), s.chars, (c :: cs).drop s.chars.length⟩
  | none => unexpected c cs

/-- The piece at the front of a text. -/
def scan : List Char → Lexeme
  | [] => ⟨.finish, [], []⟩
  | '-' :: '-' :: cs => lineComment cs
  | '/' :: '*' :: cs => blockComment cs
  | c :: cs =>
    if isBlank c then ⟨.layout, [c], cs⟩
    else if c = '\'' then string cs
    else if c = '"' || c = '\x60' then quotedName c cs
    else if Number.startsAt (c :: cs) then number (c :: cs)
    else if isNameStart c then word (c :: cs)
    else if c = '?' then question cs
    else if c = ':' then namedParameter c .colonParam cs
    else if c = '$' then namedParameter c .dollarParam cs
    else symbol c cs

/-- The characters of a piece and those behind it. -/
def all (piece : Lexeme) : List Char := piece.text ++ piece.rest

theorem all_string (cs : List Char) : (string cs).all = '\'' :: cs := by
  unfold string
  split
  · next e h => simpa [all, Enclosed.all] using StringLiteral.all_of_read? h
  · simp [all]

theorem all_quotedName (quote : Char) (cs : List Char) :
    (quotedName quote cs).all = quote :: cs := by
  unfold quotedName
  split
  · next e h => simpa [all, Enclosed.all] using QuotedName.all_of_read? h
  · simp [all]

theorem all_namedParameter (sigil : Char) (kind : String → Token.Kind) (cs : List Char) :
    (namedParameter sigil kind cs).all = sigil :: cs := by
  unfold namedParameter
  dsimp only
  split <;> simp [all, unexpected]

theorem all_symbol (c : Char) (cs : List Char) : (symbol c cs).all = c :: cs := by
  unfold symbol
  split
  · next s h => exact Symbol.append_of_atFront? h
  · rfl

/-- The pieces of a text lie behind one another: no character is lost or added. -/
theorem all_scan (cs : List Char) : (scan cs).all = cs := by
  unfold scan
  split
  · rfl
  · simp [all, lineComment]
  · next cs => simpa [all, blockComment, BlockComment.all] using BlockComment.all_scan 1 cs
  · next c cs _ _ =>
    repeat' split
    · rfl
    · simp_all [all_string]
    · exact all_quotedName c cs
    · exact Number.append_split (c :: cs)
    · simp [all, word]
    · simp_all [all, question]
    · exact all_namedParameter c _ cs
    · exact all_namedParameter c _ cs
    · exact all_symbol c cs

/-- Whether the text was read without a fault and had not ended. -/
def Content.isPiece : Content → Bool
  | .layout | .token _ => true
  | .fault _ | .finish => false

/-- A piece that is no fault has characters, so the next one starts further on. -/
theorem text_ne_nil (cs : List Char) :
    (scan cs).content.isPiece = true → (scan cs).text ≠ [] := by
  unfold scan
  split
  · simp [Content.isPiece]
  · simp [lineComment]
  · simp [blockComment]
  · next c cs _ _ =>
    repeat' split
    · simp
    · unfold string; split <;> simp
    · unfold quotedName; split <;> simp
    · next h => exact fun _ => Number.split_ne_nil h
    · next h => simp [word, isNamePart_of_isNameStart h]
    · simp [question]
    · unfold namedParameter; dsimp only; split <;> simp [unexpected, Content.isPiece]
    · unfold namedParameter; dsimp only; split <;> simp [unexpected, Content.isPiece]
    · unfold symbol
      split
      · next s _ => exact fun _ => Symbol.chars_ne_nil s
      · simp [unexpected, Content.isPiece]

end Lexeme

/-! ### The way over a piece -/

/-- How the text of a token is passed over. -/
def Token.Kind.strides : Token.Kind → List Char → List Stride
  | .string _, cs => StringLiteral.strides cs
  | .quotedIdent _, cs => QuotedName.strides cs
  | .ident _, cs | .keyword _, cs => cs.map .within
  | .colonParam _, sigil :: cs | .dollarParam _, sigil :: cs => .alone sigil :: cs.map .within
  | _, cs => cs.map .alone

/-- How layout is passed over: a blank by itself, and a line comment at once. -/
def layoutStrides : List Char → List Stride
  | '-' :: cs => .within '-' :: cs.map .within
  | '/' :: cs => ('/' :: cs).map BlockComment.stride
  | cs => cs.map .alone

/-- How the characters are passed over that the reader of a faulty piece has looked at. -/
def LexFault.strides : LexFault → List Char → List Stride
  | .unterminatedString, cs => StringLiteral.strides cs
  | .unterminatedName, cs => QuotedName.strides cs
  | .unterminatedComment, cs => cs.map BlockComment.stride
  | _, cs => cs.map .alone

namespace Lexeme

/-- How a piece is passed over. -/
def strides (piece : Lexeme) : List Stride :=
  match piece.content with
  | .token kind => kind.strides piece.text
  | .layout => layoutStrides piece.text
  | .fault fault => fault.strides piece.text
  | .finish => piece.text.map .alone

end Lexeme

theorem chars_map {f : Char → Stride} (h : ∀ c, (f c).char = c) (cs : List Char) :
    (cs.map f).map Stride.char = cs := by
  simp [Function.comp_def, h]

@[simp] theorem Token.Kind.chars_strides (kind : Token.Kind) (cs : List Char) :
    (kind.strides cs).map Stride.char = cs := by
  unfold strides
  split
  · exact StringLiteral.chars_strides cs
  · exact QuotedName.chars_strides cs
  · exact chars_map Stride.char_within cs
  · exact chars_map Stride.char_within cs
  · next sigil cs => simp [chars_map Stride.char_within cs]
  · next sigil cs => simp [chars_map Stride.char_within cs]
  · exact chars_map Stride.char_alone cs

@[simp] theorem chars_layoutStrides (cs : List Char) : (layoutStrides cs).map Stride.char = cs := by
  unfold layoutStrides
  split
  · next cs => simp [chars_map Stride.char_within cs]
  · next cs => exact chars_map BlockComment.char_stride ('/' :: cs)
  · exact chars_map Stride.char_alone cs

@[simp] theorem LexFault.chars_strides (fault : LexFault) (cs : List Char) :
    (fault.strides cs).map Stride.char = cs := by
  unfold strides
  split
  · exact StringLiteral.chars_strides cs
  · exact QuotedName.chars_strides cs
  · exact chars_map BlockComment.char_stride cs
  · exact chars_map Stride.char_alone cs

/-- Each character of a piece is passed over once, in its place. -/
@[simp] theorem Lexeme.chars_strides (piece : Lexeme) :
    piece.strides.map Stride.char = piece.text := by
  unfold strides
  split
  · exact Token.Kind.chars_strides _ _
  · exact chars_layoutStrides _
  · exact LexFault.chars_strides _ _
  · exact chars_map Stride.char_alone _

namespace Token

/-- How the token is passed over. -/
def strides (t : Token) : List Stride := t.kind.strides t.text.toList

/-- The place behind the token. -/
def behind (t : Token) : Position := t.position.across t.strides

end Token

end CanonicalSql
