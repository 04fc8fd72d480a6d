import CanonicalSql.Parser.Name
import CanonicalSql.Printed.Expr
import CanonicalSql.Proofs.Reading.Step

/-! The tokens of printed pieces, and what follows printed text.  A rule that looks at the token
behind its construct is told what can stand there by a list of terminals. -/

namespace CanonicalSql

/-! ### Terminals as tokens -/

namespace Terminal

/-- The token that a terminal is printed as. -/
def spelled : Terminal → Spelled
  | .keyword k => ⟨.keyword k, k.text⟩
  | .word w => ⟨.ident w.text, w.text⟩
  | .symbol s => ⟨.symbol s, s.text⟩

/-- A printed terminal is taken for no other. -/
@[simp] theorem admits_spelled (t u : Terminal) : t.admits u.spelled.kind = decide (t = u) := by
  cases t <;> cases u <;> simp [admits, spelled, Word.spelledBy_text]

theorem admits_eof (t : Terminal) : t.admits .eof = false := by
  cases t <;> rfl

theorem admits_self (t : Terminal) : t.admits t.spelled.kind = true := by simp

/-- Whether a terminal ends every expression before it: it continues none, opens neither arguments
nor a window, and is no part of a name. -/
def endsExpr : Terminal → Bool
  | .keyword k => !([.OR, .AND, .IS, .NOT, .LIKE, .ILIKE, .BETWEEN, .IN].contains k)
  | .word w => w ≠ .OVER
  | .symbol s => [.rightParen, .rightBracket, .comma, .semicolon].contains s

/-- Whether a terminal is a word that could be taken for a name. -/
def isWord : Terminal → Bool
  | .word _ => true
  | .keyword _ | .symbol _ => false

end Terminal

/-- Whether the first of the tokens is one of the terminals, or there are no tokens. -/
def Begins (ts : List Terminal) (s : List Spelled) : Prop :=
  s = [] ∨ ∃ t ∈ ts, ∃ s', s = t.spelled :: s'

namespace Begins

variable {ts us : List Terminal} {t : Terminal} {s : List Spelled}

theorem nil (ts : List Terminal) : Begins ts [] := .inl rfl

theorem cons (h : t ∈ ts) (s : List Spelled) : Begins ts (t.spelled :: s) := .inr ⟨t, h, s, rfl⟩

theorem mono (h : Begins ts s) (hs : ts ⊆ us) : Begins us s := by
  rcases h with rfl | ⟨t, ht, s', rfl⟩
  · exact nil us
  · exact cons (hs ht) s'

theorem weaken (h : Begins ts s) (t : Terminal) : Begins (t :: ts) s :=
  h.mono (List.subset_cons_self t ts)

theorem first (t : Terminal) (ts : List Terminal) (s : List Spelled) :
    Begins (t :: ts) (t.spelled :: s) := cons List.mem_cons_self s

/-- A terminal that is not on the list is not ahead. -/
theorem admits (h : Begins ts s) (ht : t ∉ ts) : t.admits (kindAt s 0) = false := by
  rcases h with rfl | ⟨u, hu, s', rfl⟩
  · exact t.admits_eof
  · have differs : t ≠ u := fun h => ht (h ▸ hu)
    simp [differs]

/-- Where none of the terminals is a word, no name is ahead. -/
theorem name? (h : Begins ts s) (ht : ts.all (!Terminal.isWord ·) = true) :
    (kindAt s 0).name? = none := by
  rcases h with rfl | ⟨u, hu, s', rfl⟩
  · rfl
  · have noWord := List.all_eq_true.1 ht u hu
    cases u with
    | word w => cases noWord
    | keyword k => rfl
    | symbol s => rfl

end Begins

/-! ### The tokens of pieces -/

/-- A name as it is printed: bare if it is `plain`, and otherwise between quotes. -/
def writtenName (plain : Bool) (name : String) : Spelled :=
  ⟨Piece.nameKind plain name, String.ofList (Piece.nameChars plain name)⟩

/-- The token of the name `name`. -/
def nameToken (name : String) : Spelled := writtenName (isPlainName name) name

/-- The token of the name of a type. -/
def typeNameToken (name : String) : Spelled :=
  writtenName (isPlainName name && !isColumnPlaceWord name) name

/-- The token of the name of a function. -/
def functionNameToken (name : String) : Spelled :=
  writtenName (isPlainName name || isFunctionKeyword name) name

/-- The token of the name of an engine or a format. -/
def labelToken (name : String) : Spelled := writtenName (isPlainName name || isWord name) name

section

variable (ps qs : List Piece)

@[simp] theorem tokensOf_nil : tokensOf [] = [] := rfl

@[simp] theorem tokensOf_append : tokensOf (ps ++ qs) = tokensOf ps ++ tokensOf qs :=
  List.filterMap_append

@[simp] theorem tokensOf_space : tokensOf (.space :: ps) = tokensOf ps := rfl

@[simp] theorem tokensOf_lineEnd : tokensOf (.lineEnd :: ps) = tokensOf ps := rfl

@[simp] theorem tokensOf_keyword (k : Keyword) :
    tokensOf (.keyword k :: ps) = (Terminal.keyword k).spelled :: tokensOf ps := by
  simp [tokensOf, Piece.token?, Piece.kind?, Piece.chars, Terminal.spelled]

@[simp] theorem tokensOf_word (w : Word) :
    tokensOf (.word w :: ps) = (Terminal.word w).spelled :: tokensOf ps := by
  simp [tokensOf, Piece.token?, Piece.kind?, Piece.chars, Terminal.spelled]

@[simp] theorem tokensOf_symbol (s : Symbol) :
    tokensOf (.symbol s :: ps) = (Terminal.symbol s).spelled :: tokensOf ps := by
  simp [tokensOf, Piece.token?, Piece.kind?, Piece.chars, Terminal.spelled, Symbol.chars]

@[simp] theorem tokensOf_name (n : String) :
    tokensOf (.name n :: ps) = nameToken n :: tokensOf ps := rfl

@[simp] theorem tokensOf_typeName (n : String) :
    tokensOf (.typeName n :: ps) = typeNameToken n :: tokensOf ps := rfl

@[simp] theorem tokensOf_functionName (n : String) :
    tokensOf (.functionName n :: ps) = functionNameToken n :: tokensOf ps := rfl

@[simp] theorem tokensOf_label (n : String) :
    tokensOf (.label n :: ps) = labelToken n :: tokensOf ps := rfl

@[simp] theorem tokensOf_unit (u : String) :
    tokensOf (.unit u :: ps) = ⟨.ident u, u⟩ :: tokensOf ps := by
  simp [tokensOf, Piece.token?, Piece.kind?, Piece.chars]

@[simp] theorem tokensOf_number (t : String) :
    tokensOf (.number t :: ps) = ⟨.number t, t⟩ :: tokensOf ps := by
  simp [tokensOf, Piece.token?, Piece.kind?, Piece.chars]

/-- The token of a string literal. -/
def stringToken (v : String) : Spelled := ⟨.string v, String.ofList (StringLiteral.encode v.toList)⟩

/-- The token of a parameter. -/
def placeholderToken (p : Placeholder) : Spelled :=
  ⟨Piece.placeholderKind p, String.ofList (Piece.placeholderChars p)⟩

@[simp] theorem tokensOf_string (v : String) :
    tokensOf (.string v :: ps) = stringToken v :: tokensOf ps := rfl

@[simp] theorem tokensOf_placeholder (p : Placeholder) :
    tokensOf (.placeholder p :: ps) = placeholderToken p :: tokensOf ps := rfl

@[simp] theorem tokensOf_parens : tokensOf (Piece.parens ps) =
    (Terminal.symbol .leftParen).spelled :: (tokensOf ps ++ [(Terminal.symbol .rightParen).spelled])
    := by
  simp [Piece.parens]

/-- Blanks between pieces make no difference to the tokens. -/
@[simp] theorem tokensOf_phrase : tokensOf (Piece.phrase ps) = tokensOf ps := by
  induction ps with
  | nil => rfl
  | cons p ps ih =>
    cases ps with
    | nil => rfl
    | cons q ps =>
      change tokensOf ([p] ++ .space :: Piece.phrase (q :: ps)) = tokensOf ([p] ++ q :: ps)
      rw [tokensOf_append, tokensOf_append, tokensOf_space, ih]

@[simp] theorem tokensOf_ahead : tokensOf (Piece.ahead ps) = tokensOf ps := by
  simp [Piece.ahead]

@[simp] theorem tokensOf_behind : tokensOf (Piece.behind ps) = tokensOf ps := by
  simp [Piece.behind]

@[simp] theorem tokensOf_clause : tokensOf (Piece.clause ps qs) = tokensOf ps ++ tokensOf qs := by
  simp [Piece.clause]

@[simp] theorem tokensOf_flag (present : Bool) :
    tokensOf (Piece.flag present ps) = if present then tokensOf ps else [] := by
  cases present <;> simp [Piece.flag]

@[simp] theorem tokensOf_spaced (p : Piece) : tokensOf (Piece.spaced p) = tokensOf [p] := by
  change tokensOf ([p] ++ [.space]) = _
  rw [tokensOf_append]
  simp

end

/-- The tokens of a list with commas between its items. -/
theorem tokensOf_commas (item : List Piece) (items : List (List Piece)) :
    tokensOf (Piece.commas (item :: items)) = tokensOf item ++
      items.flatMap fun item => (Terminal.symbol .comma).spelled :: tokensOf item := by
  induction items generalizing item with
  | nil => simp [Piece.commas, List.intercalate]
  | cons next items ih =>
    have step : Piece.commas (item :: next :: items) =
        item ++ .symbol .comma :: .space :: Piece.commas (next :: items) := by
      simp [Piece.commas, List.intercalate]
    rw [step]
    simp [ih]

/-! ### Lists of printed items -/

theorem DataTypeArg.each_eq (args : List DataTypeArg) :
    DataTypeArg.each args = args.map DataTypeArg.pieces := by
  induction args with
  | nil => rfl
  | cons arg args ih => simp [DataTypeArg.each, ih]

theorem Expr.each_eq (es : List Expr) : Expr.each es = es.map Expr.pieces := by
  induction es with
  | nil => rfl
  | cons e es ih => simp [Expr.each, ih]

theorem OrderItem.each_eq (items : List OrderItem) : OrderItem.each items = items.map OrderItem.pieces := by
  induction items with
  | nil => rfl
  | cons item items ih => simp [OrderItem.each, ih]

theorem CommonTable.each_eq (tables : List CommonTable) : CommonTable.each tables = tables.map CommonTable.pieces := by
  induction tables with
  | nil => rfl
  | cons table tables ih => simp [CommonTable.each, ih]

theorem SelectItem.each_eq (items : List SelectItem) : SelectItem.each items = items.map SelectItem.pieces := by
  induction items with
  | nil => rfl
  | cons item items ih => simp [SelectItem.each, ih]

theorem Setting.each_eq (settings : List Setting) : Setting.each settings = settings.map Setting.pieces := by
  induction settings with
  | nil => rfl
  | cons setting settings ih => simp [Setting.each, ih]

end CanonicalSql
