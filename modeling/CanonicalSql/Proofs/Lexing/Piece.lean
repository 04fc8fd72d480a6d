import CanonicalSql.Printed.Statement
import CanonicalSql.Proofs.Lexing.Number

/-! The pieces of printed text as lexemes.  A piece is read as the token that it stands for, if it is
legible and the characters behind it do not continue it. -/

namespace CanonicalSql

/-- What a token is and how it is written, wherever it stands. -/
structure Spelled where
  kind : Token.Kind
  text : String
  deriving DecidableEq

/-- A token without its place. -/
def Token.spelled (t : Token) : Spelled := ⟨t.kind, t.text⟩

/-- The mark of the end without its place. -/
def Spelled.endMark : Spelled := ⟨.eof, ""⟩

/-- Whether `text` is a single lexeme, a token of the kind `kind`. -/
def LexesAs (text : String) (kind : Token.Kind) : Prop :=
  Lexeme.scan text.toList = ⟨.token kind, text.toList, []⟩

/-- Whether `name` can stand behind the sigil of a parameter. -/
def IsParameterName (name : String) : Prop := name ≠ "" ∧ name.toList.all isNamePart = true

/-- Whether a parameter can be read back. -/
def Placeholder.Legible : Placeholder → Prop
  | .anonymous => True
  | .numbered n => n ≠ 0
  | .named name | .dollar name => IsParameterName name

namespace Piece

/-- Whether a piece can be read back.  Most can whatever they hold; units, numbers and parameters
are printed as they are and have to have the right form. -/
def Legible : Piece → Prop
  | .unit u => LexesAs u (.ident u)
  | .number t => LexesAs t (.number t)
  | .placeholder p => p.Legible
  | _ => True

/-- What a printed name is read as. -/
def nameKind (plain : Bool) (name : String) : Token.Kind :=
  if plain then Lexeme.wordKind name else .quotedIdent name

/-- What a printed parameter is read as. -/
def placeholderKind : Placeholder → Token.Kind
  | .anonymous => .question
  | .numbered n => .questionNumber n
  | .named n => .colonParam n
  | .dollar n => .dollarParam n

/-- What a piece is read as; blanks are no tokens. -/
def kind? : Piece → Option Token.Kind
  | .space | .lineEnd => none
  | .keyword k => some (.keyword k)
  | .word w => some (.ident w.text)
  | .symbol s => some (.symbol s)
  | .name n => some (nameKind (isPlainName n) n)
  | .typeName n => some (nameKind (isPlainName n && !isColumnPlaceWord n) n)
  | .functionName n => some (nameKind (isPlainName n || isFunctionKeyword n) n)
  | .label n => some (nameKind (isPlainName n || isWord n) n)
  | .unit u => some (.ident u)
  | .number t => some (.number t)
  | .string v => some (.string v)
  | .placeholder p => some (placeholderKind p)

/-- The token that a piece is read as, if it is one. -/
def token? (p : Piece) : Option Spelled := p.kind?.map fun k => ⟨k, String.ofList p.chars⟩

/-- The lexeme that a piece is read as. -/
def content (p : Piece) : Lexeme.Content :=
  match p.kind? with
  | none => .layout
  | some k => .token k

/-- Whether a piece ends every lexeme before it and is ended by every lexeme behind it. -/
def isBreak : Piece → Bool
  | .space | .lineEnd => true
  | .symbol s =>
    [.leftParen, .rightParen, .leftBracket, .rightBracket, .comma, .semicolon].contains s
  | _ => false

/-- Whether the characters `rest` do not continue the piece. -/
def endsBefore (p : Piece) (rest : List Char) : Prop :=
  match p with
  | .space | .lineEnd => True
  | .symbol .plus | .symbol .leftParen | .symbol .rightParen | .symbol .leftBracket
  | .symbol .rightBracket | .symbol .comma | .symbol .semicolon => True
  | .symbol .minus => rest.head? ≠ some '-'
  | .symbol .dot => rest.head?.all (!Char.isDigit ·) = true
  | .name _ => breaks rest = true ∨ rest.head? = some '.'
  | _ => breaks rest = true

/-- Whether the piece `q` can stand right behind the piece `p`. -/
def meets (p q : Piece) : Bool :=
  p.isBreak || q.isBreak ||
    match p, q with
    | .name _, .symbol s => s = .dot
    | .symbol .dot, .name _ => true
    | .symbol .dot, .symbol s => s = .star
    | .symbol .minus, .symbol _ | .symbol .plus, .symbol _ => false
    | .symbol .minus, _ | .symbol .plus, _ => true
    | _, _ => false

end Piece

/-! ### Single pieces -/

/-- A text that opens no comment is read as its first character tells. -/
theorem scan_cons {c : Char} {cs : List Char} (line : ∀ ds, c :: cs ≠ '-' :: '-' :: ds)
    (block : ∀ ds, c :: cs ≠ '/' :: '*' :: ds) : Lexeme.scan (c :: cs) =
      if isBlank c then ⟨.layout, [c], cs⟩
      else if c = '\'' then Lexeme.string cs
      else if c = '"' || c = '\x60' then Lexeme.quotedName c cs
      else if Number.startsAt (c :: cs) then Lexeme.number (c :: cs)
      else if isNameStart c then Lexeme.word (c :: cs)
      else if c = '?' then Lexeme.question cs
      else if c = ':' then Lexeme.namedParameter c .colonParam cs
      else if c = '$' then Lexeme.namedParameter c .dollarParam cs
      else Lexeme.symbol c cs := by
  rw [Lexeme.scan.eq_def]
  split
  · next h => cases h
  · next h => exact absurd h (line _)
  · next h => exact absurd h (block _)
  · next h => cases h; rfl

theorem noNamePart_of_breaks {rest : List Char} (h : breaks rest = true) :
    rest.head?.all (!isNamePart ·) = true :=
  of_breaks h rfl

theorem noQuote_of_breaks {rest : List Char} (h : breaks rest = true) :
    rest.head? ≠ some '\'' ∧ rest.head? ≠ some '"' := by
  have none := of_breaks (p := fun c => decide (c ≠ '\'') && decide (c ≠ '"')) h (by decide)
  cases rest with
  | nil => simp
  | cons c rest => simpa using none

/-- A name between quotes is read as it is. -/
theorem scan_quoted (cs : List Char) {rest : List Char} (h : rest.head? ≠ some '"') :
    Lexeme.scan (QuotedName.encode cs ++ rest) =
      ⟨.token (.quotedIdent (String.ofList cs)), QuotedName.encode cs, rest⟩ := by
  have read := QuotedName.read?_body cs h
  rw [QuotedName.encode, List.append_assoc, List.cons_append, List.singleton_append,
    scan_cons (by simp) (by simp)]
  simp [isBlank, Lexeme.quotedName, read]

/-- A string literal is read as its value. -/
theorem scan_string (cs : List Char) {rest : List Char} (h : rest.head? ≠ some '\'') :
    Lexeme.scan (StringLiteral.encode cs ++ rest) =
      ⟨.token (.string (String.ofList cs)), StringLiteral.encode cs, rest⟩ := by
  have read := StringLiteral.read?_body cs h
  rw [StringLiteral.encode, List.append_assoc, List.cons_append, List.singleton_append,
    scan_cons (by simp) (by simp)]
  simp [isBlank, Lexeme.string, read]

theorem decimalValue_toDigits (n : Nat) : decimalValue (Nat.toDigits 10 n) = n := by
  rw [decimalValue, ← Nat.ofDigitChars_eq_foldl]
  exact Nat.ofDigitChars_ten_toDigits

/-- The number of a numbered parameter is read back. -/
theorem scan_question (digits : List Char) {rest : List Char} (h : digits.all Char.isDigit = true)
    (hr : rest.head?.all (!Char.isDigit ·) = true) :
    Lexeme.scan ('?' :: digits ++ rest) = ⟨Lexeme.questionContent digits, '?' :: digits, rest⟩ := by
  rw [List.cons_append, scan_cons (by simp) (by simp)]
  have start : isNameStart '?' = false := rfl
  simp [isBlank, Number.startsAt, start, Lexeme.question, takeWhile_append_of_all h hr,
    dropWhile_append_of_all h hr]

theorem questionContent_toDigits {n : UInt32} (h : n ≠ 0) :
    Lexeme.questionContent (Nat.toDigits 10 n.toNat) = .token (.questionNumber n) := by
  have positive : 0 < n.toNat := by
    have differs := mt UInt32.toNat_inj.1 h
    rw [UInt32.toNat_zero] at differs
    omega
  have fits : n.toNat < 4294967296 := n.toNat_lt
  simp [Lexeme.questionContent, Nat.toDigits_ne_nil, decimalValue_toDigits, positive, fits]

/-- A named parameter is read back. -/
theorem scan_parameter {sigil : Char} {kind : String → Token.Kind} {name : String}
    {rest : List Char} (hs : sigil = ':' ∧ kind = .colonParam ∨ sigil = '$' ∧ kind = .dollarParam)
    (h : IsParameterName name) (hr : rest.head?.all (!isNamePart ·) = true) :
    Lexeme.scan (sigil :: name.toList ++ rest) =
      ⟨.token (kind name), sigil :: name.toList, rest⟩ := by
  obtain ⟨some, all⟩ := h
  have nonempty : name.toList ≠ [] := by simpa using some
  have named : Lexeme.namedParameter sigil kind (name.toList ++ rest) =
      ⟨.token (kind name), sigil :: name.toList, rest⟩ := by
    simp [Lexeme.namedParameter, takeWhile_append_of_all all hr, dropWhile_append_of_all all hr,
      nonempty]
  rw [List.cons_append]
  rcases hs with ⟨rfl, rfl⟩ | ⟨rfl, rfl⟩
  · rw [scan_cons (by simp) (by simp), ← named]
    have start : isNameStart ':' = false := rfl
    simp [isBlank, Number.startsAt, start]
  · rw [scan_cons (by simp) (by simp), ← named]
    have start : isNameStart '$' = false := rfl
    simp [isBlank, Number.startsAt, start]

/-- Where nothing continues a symbol, it is the longest one at the front. -/
theorem atFront?_symbol {s : Symbol} {rest : List Char} (h : (Piece.symbol s).endsBefore rest) :
    Symbol.atFront? (s.chars ++ rest) = some s := by
  have other : ∀ c, breaks rest = true → isBreak c = false → [c].isPrefixOf rest = false := by
    intro c hb hc
    cases rest with
    | nil => rfl
    | cons d rest =>
      have differs : c ≠ d := by
        rintro rfl
        simp [breaks, hc] at hb
      simp [List.isPrefixOf, differs]
  cases s
  case equal | less | greater =>
    have h1 := other '=' h (by decide)
    have h2 := other '>' h (by decide)
    simp_all [Symbol.atFront?, Symbol.longestFirst, Symbol.chars, Symbol.text]
  all_goals simp [Symbol.atFront?, Symbol.longestFirst, Symbol.chars, Symbol.text]

theorem scan_symbol {s : Symbol} {rest : List Char} (h : (Piece.symbol s).endsBefore rest) :
    Lexeme.scan (s.chars ++ rest) = ⟨.token (.symbol s), s.chars, rest⟩ := by
  have front := atFront?_symbol h
  have first : ∃ c cs, s.chars = c :: cs ∧ isBlank c = false ∧ isNameStart c = false ∧
      c.isDigit = false ∧ c ≠ '\'' ∧ c ≠ '"' ∧ c ≠ '\x60' ∧ c ≠ '?' ∧ c ≠ ':' ∧ c ≠ '$' ∧
      (c = '.' → s = .dot) := by
    cases s <;> exact ⟨_, _, rfl, by decide +kernel⟩
  obtain ⟨c, cs, hs, blank, start, digit, h1, h2, h3, h4, h5, h6, dot⟩ := first
  have number : Number.startsAt (c :: (cs ++ rest)) = false := by
    by_cases hc : c = '.'
    · obtain rfl := dot hc
      cases hs
      have noDigit : rest.head?.all (!Char.isDigit ·) = true := h
      cases rest <;> simp_all [Number.startsAt]
    · simp [Number.startsAt, hc, digit]
  have line : ∀ ds, c :: (cs ++ rest) ≠ '-' :: '-' :: ds := by
    intro ds hd
    cases s <;> cases hs <;> cases hd
    exact h rfl
  have block : ∀ ds, c :: (cs ++ rest) ≠ '/' :: '*' :: ds := by
    intro ds hd
    cases s <;> cases hs <;> cases hd
    exact absurd (show isBreak '*' = true from h) (by decide)
  rw [hs, List.cons_append] at front ⊢
  rw [scan_cons line block]
  simp [blank, start, number, h1, h2, h3, h4, h5, h6, Lexeme.symbol, front, hs]

/-! ### What lexemes hold -/

/-- What is known of a token that was read from a text. -/
def Token.Kind.Genuine : Token.Kind → Prop
  | .number t => NumberChars t.toList
  | .ident name => WordChars name.toList ∧ Lexeme.wordKind name = .ident name
  | .questionNumber n => n ≠ 0
  | .colonParam name | .dollarParam name => IsParameterName name
  | _ => True

theorem genuine_wordKind {word : String} (h : WordChars word.toList) :
    (Lexeme.wordKind word).Genuine := by
  cases hk : Keyword.ofWord? word with
  | some k => simp [Lexeme.wordKind, hk, Token.Kind.Genuine]
  | none => simp [Lexeme.wordKind, hk, Token.Kind.Genuine, h]

theorem genuine_questionContent {digits : List Char} {k : Token.Kind}
    (h : Lexeme.questionContent digits = .token k) : k.Genuine := by
  unfold Lexeme.questionContent at h
  split at h
  · cases h; trivial
  · dsimp only at h
    split at h
    · next range =>
      cases h
      rw [Bool.and_eq_true, decide_eq_true_eq, decide_eq_true_eq] at range
      intro zero
      have value := congrArg UInt32.toNat zero
      rw [UInt32.toNat_ofNat_of_lt' range.2, UInt32.toNat_zero] at value
      omega
    · cases h

theorem genuine_namedParameter {sigil : Char} {kind : String → Token.Kind} {cs : List Char}
    {k : Token.Kind} (hk : ∀ name, IsParameterName name → (kind name).Genuine)
    (h : (Lexeme.namedParameter sigil kind cs).content = .token k) : k.Genuine := by
  unfold Lexeme.namedParameter at h
  dsimp only at h
  split at h
  · cases h
  · next some =>
    cases h
    exact hk _ ⟨by simpa using some, by simp⟩

/-- Every token that is read is genuine. -/
theorem genuine_of_scan {cs : List Char} {k : Token.Kind}
    (h : (Lexeme.scan cs).content = .token k) : k.Genuine := by
  unfold Lexeme.scan at h
  split at h
  · cases h
  · cases h
  · unfold Lexeme.blockComment at h
    dsimp only at h
    split at h <;> cases h
  · next c cs _ _ =>
    split at h
    · cases h
    split at h
    · unfold Lexeme.string at h
      split at h <;> cases h
      trivial
    split at h
    · unfold Lexeme.quotedName at h
      split at h <;> cases h
      trivial
    split at h
    · next starts =>
      cases h
      change NumberChars (String.ofList _).toList
      rw [String.toList_ofList]
      exact numberChars_split starts
    split at h
    · next start =>
      cases h
      refine genuine_wordKind ⟨c, cs.takeWhile isNamePart, ?_, start, List.all_takeWhile⟩
      simp [isNamePart_of_isNameStart start]
    split at h
    · exact genuine_questionContent h
    split at h
    · exact genuine_namedParameter (fun _ => id) h
    split at h
    · exact genuine_namedParameter (fun _ => id) h
    · unfold Lexeme.symbol at h
      split at h <;> cases h
      trivial

theorem lexesAs_number {t : String} : LexesAs t (.number t) ↔ NumberChars t.toList := by
  constructor
  · intro h
    exact genuine_of_scan (congrArg Lexeme.content h)
  · intro h
    have read := scan_number h (show breaks [] = true from rfl)
    rwa [List.append_nil, String.ofList_toList] at read

theorem lexesAs_ident {u : String} :
    LexesAs u (.ident u) ↔ WordChars u.toList ∧ Lexeme.wordKind u = .ident u := by
  constructor
  · intro h
    exact genuine_of_scan (congrArg Lexeme.content h)
  · rintro ⟨chars, kind⟩
    have read := scan_word chars (show ([] : List Char).head?.all (!isNamePart ·) = true from rfl)
    rwa [List.append_nil, String.ofList_toList, kind] at read

/-! ### Pieces as lexemes -/

theorem scan_word_of_breaks {word : String} {rest : List Char} (h : WordChars word.toList)
    (hr : breaks rest = true) :
    Lexeme.scan (word.toList ++ rest) = ⟨.token (Lexeme.wordKind word), word.toList, rest⟩ := by
  rw [scan_word h (noNamePart_of_breaks hr), String.ofList_toList]

/-- A name is read as a bare word if it is plain, and otherwise between its quotes. -/
theorem scan_name {plain : Bool} {name : String} {rest : List Char}
    (word : plain = true → WordChars name.toList)
    (part : rest.head?.all (!isNamePart ·) = true) (quote : rest.head? ≠ some '"') :
    Lexeme.scan (Piece.nameChars plain name ++ rest) =
      ⟨.token (Piece.nameKind plain name), Piece.nameChars plain name, rest⟩ := by
  cases plain with
  | true => simp [Piece.nameChars, Piece.nameKind, scan_word (word rfl) part]
  | false => simp [Piece.nameChars, Piece.nameKind, scan_quoted name.toList quote]

theorem wordChars_of_isFunctionKeyword {name : String} (h : isFunctionKeyword name = true) :
    WordChars name.toList := by
  unfold isFunctionKeyword at h
  cases hk : Keyword.ofWord? name with
  | none => simp [hk] at h
  | some k => exact Keyword.wordChars_of_ofWord? hk

theorem scan_placeholder {p : Placeholder} {rest : List Char} (h : p.Legible)
    (hr : breaks rest = true) :
    Lexeme.scan (Piece.placeholderChars p ++ rest) =
      ⟨.token (Piece.placeholderKind p), Piece.placeholderChars p, rest⟩ := by
  have noDigit := of_breaks (p := (!Char.isDigit ·)) hr (by decide)
  cases p with
  | anonymous => exact scan_question [] rfl noDigit
  | numbered n =>
    have digits : (Nat.toDigits 10 n.toNat).all Char.isDigit = true :=
      List.all_eq_true.2 fun c hc => Nat.isDigit_of_mem_toDigits (by omega) (by omega) hc
    rw [Piece.placeholderChars, scan_question _ digits noDigit, questionContent_toDigits h]
    rfl
  | named name => exact scan_parameter (.inl ⟨rfl, rfl⟩) h (noNamePart_of_breaks hr)
  | dollar name => exact scan_parameter (.inr ⟨rfl, rfl⟩) h (noNamePart_of_breaks hr)

/-- A legible piece is read whole where nothing continues it. -/
theorem scan_piece {p : Piece} {rest : List Char} (legible : p.Legible)
    (ends : p.endsBefore rest) :
    Lexeme.scan (p.chars ++ rest) = ⟨p.content, p.chars, rest⟩ := by
  cases p with
  | space => exact scan_cons (by simp) (by simp)
  | lineEnd => exact scan_cons (by simp) (by simp)
  | keyword k =>
    have read := scan_word_of_breaks k.wordChars_text ends
    rwa [wordKind_keyword] at read
  | word w =>
    have read := scan_word_of_breaks w.wordChars_text ends
    rwa [w.wordKind_text] at read
  | symbol s => exact scan_symbol ends
  | name n =>
    refine scan_name wordChars_of_isPlainName ?_ ?_
    · rcases ends with ends | dot
      · exact noNamePart_of_breaks ends
      · rw [dot]; rfl
    · rcases ends with ends | dot
      · exact (noQuote_of_breaks ends).2
      · rw [dot]; decide
  | typeName n =>
    refine scan_name (fun h => ?_) (noNamePart_of_breaks ends) (noQuote_of_breaks ends).2
    rw [Bool.and_eq_true] at h
    exact wordChars_of_isPlainName h.1
  | functionName n =>
    refine scan_name (fun h => ?_) (noNamePart_of_breaks ends) (noQuote_of_breaks ends).2
    rw [Bool.or_eq_true] at h
    exact h.elim wordChars_of_isPlainName wordChars_of_isFunctionKeyword
  | label n =>
    refine scan_name (fun h => ?_) (noNamePart_of_breaks ends) (noQuote_of_breaks ends).2
    rw [Bool.or_eq_true] at h
    exact h.elim wordChars_of_isPlainName wordChars_of_isWord
  | unit u =>
    obtain ⟨chars, kind⟩ := lexesAs_ident.1 legible
    have read := scan_word_of_breaks chars ends
    rwa [kind] at read
  | number t =>
    have read := scan_number (lexesAs_number.1 legible) ends
    rwa [String.ofList_toList] at read
  | string v =>
    have read := scan_string v.toList (noQuote_of_breaks ends).1
    rwa [String.ofList_toList] at read
  | placeholder p => exact scan_placeholder legible ends

end CanonicalSql
