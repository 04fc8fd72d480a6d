import CanonicalSql.Parser.Statement
import CanonicalSql.Proofs.Lexing.Piece

/-! What the rules of the grammar do with tokens: which of them are constants and parameters, and
where a limit has the form with a comma. -/

namespace CanonicalSql

/-! ### Constants and parameters -/

/-- Whether a token of this kind is a constant or a parameter, which a tree has to keep. -/
def Token.Kind.isLiteral : Token.Kind → Bool
  | .number _ | .string _ | .question | .questionNumber _ | .colonParam _ | .dollarParam _ => true
  | .ident _ | .quotedIdent _ | .symbol _ | .keyword _ | .eof => false

/-- The constants and parameters among tokens. -/
def literalsOf (ts : List Token) : List Token.Kind :=
  (ts.map Token.kind).filter Token.Kind.isLiteral

/-- The constants and parameters among pieces. -/
def Piece.literals (ps : List Piece) : List Token.Kind :=
  (ps.filterMap Piece.kind?).filter Token.Kind.isLiteral

section

variable {t : Token} {ts us : List Token} {p : Piece} {ps qs : List Piece}

@[simp] theorem literalsOf_nil : literalsOf [] = [] := rfl

@[simp] theorem literalsOf_append : literalsOf (ts ++ us) = literalsOf ts ++ literalsOf us := by
  simp [literalsOf]

theorem literalsOf_silent (h : t.kind.isLiteral = false) : literalsOf (t :: ts) = literalsOf ts := by
  simp [literalsOf, h]

namespace Piece

@[simp] theorem literals_nil : literals [] = [] := rfl

@[simp] theorem literals_append : literals (ps ++ qs) = literals ps ++ literals qs := by
  simp [literals]

theorem literals_cons : literals (p :: ps) = literals [p] ++ literals ps :=
  @literals_append [p] ps

theorem isLiteral_nameKind (plain : Bool) (name : String) :
    (nameKind plain name).isLiteral = false := by
  unfold nameKind Lexeme.wordKind
  repeat' split
  all_goals rfl

theorem literals_of_kind? {k : Token.Kind} (hk : p.kind? = some k) (h : k.isLiteral = false) :
    literals (p :: ps) = literals ps := by
  simp [literals, hk, h]

@[simp] theorem literals_space : literals (.space :: ps) = literals ps := rfl

@[simp] theorem literals_lineEnd : literals (.lineEnd :: ps) = literals ps := rfl

@[simp] theorem literals_keyword (k : Keyword) : literals (.keyword k :: ps) = literals ps :=
  literals_of_kind? rfl rfl

@[simp] theorem literals_word (w : Word) : literals (.word w :: ps) = literals ps :=
  literals_of_kind? rfl rfl

@[simp] theorem literals_symbol (s : Symbol) : literals (.symbol s :: ps) = literals ps :=
  literals_of_kind? rfl rfl

@[simp] theorem literals_name (n : String) : literals (.name n :: ps) = literals ps :=
  literals_of_kind? rfl (isLiteral_nameKind _ n)

@[simp] theorem literals_typeName (n : String) : literals (.typeName n :: ps) = literals ps :=
  literals_of_kind? rfl (isLiteral_nameKind _ n)

@[simp] theorem literals_functionName (n : String) :
    literals (.functionName n :: ps) = literals ps :=
  literals_of_kind? rfl (isLiteral_nameKind _ n)

@[simp] theorem literals_label (n : String) : literals (.label n :: ps) = literals ps :=
  literals_of_kind? rfl (isLiteral_nameKind _ n)

@[simp] theorem literals_unit (u : String) : literals (.unit u :: ps) = literals ps := rfl

@[simp] theorem literals_number (t : String) :
    literals (.number t :: ps) = .number t :: literals ps := rfl

@[simp] theorem literals_string (v : String) :
    literals (.string v :: ps) = .string v :: literals ps := rfl

@[simp] theorem literals_placeholder (p : Placeholder) :
    literals (.placeholder p :: ps) = placeholderKind p :: literals ps := by
  cases p <;> rfl

@[simp] theorem literals_before_space (p : Piece) : literals [p, .space] = literals [p] := by
  simp only [literals, List.filterMap_cons, kind?]

@[simp] theorem literals_parens : literals (parens ps) = literals ps := by
  simp [parens]

@[simp] theorem literals_parensIf (needed : Bool) : literals (parensIf needed ps) = literals ps := by
  cases needed <;> simp [parensIf]

@[simp] theorem literals_phrase : literals (phrase ps) = literals ps := by
  induction ps with
  | nil => rfl
  | cons p ps ih =>
    cases ps with
    | nil => rfl
    | cons q ps =>
      rw [phrase, List.intersperse_cons_cons, literals_cons, literals_space, ← phrase, ih,
        ← literals_cons]

@[simp] theorem literals_ahead : literals (ahead ps) = literals ps := by simp [ahead]

@[simp] theorem literals_behind : literals (behind ps) = literals ps := by simp [behind]

@[simp] theorem literals_clause : literals (clause ps qs) = literals ps ++ literals qs := by
  simp [clause]

@[simp] theorem literals_commas (items : List (List Piece)) :
    literals (commas items) = items.flatMap literals := by
  induction items with
  | nil => rfl
  | cons item items ih => cases items <;> simp_all

@[simp] theorem literals_optionalParens (items : List (List Piece)) :
    literals (optionalParens items) = items.flatMap literals := by
  cases items <;> simp [optionalParens]

@[simp] theorem literals_listClause (h : literals ps = []) (items : List (List Piece)) :
    literals (listClause ps items) = items.flatMap literals := by
  cases items <;> simp [listClause, h]

@[simp] theorem literals_flag (present : Bool) :
    literals (flag present ps) = if present then literals ps else [] := by
  cases present <;> simp [flag]

@[simp] theorem literals_names (ns : List String) : literals (names ns) = [] := by
  simp [names]

@[simp] theorem literals_nameList (ns : List String) : literals (nameList ns) = [] := by
  cases ns <;> simp [nameList]

@[simp] theorem literals_aliasClause (a : Option String) : literals (aliasClause a) = [] := by
  cases a <;> simp [aliasClause]

end Piece

end

/-! ### Limits with a comma -/

/-- Whether a limit among the tokens has the form with a comma: an expression is read behind the word
`LIMIT`, and behind the expression stands a comma. -/
def CommaLimit (ts : List Token) : Prop :=
  ∃ (before : List Token) (limit : Token) (n : Nat) (e : Expr) (p q : Parser),
    ts = before ++ limit :: p.cursor.upcoming ∧ limit.kind = .keyword .LIMIT ∧
      (Grammar.upTo n).anyExpr p = .ok e q ∧ q.cursor.current.kind = .symbol .comma

theorem CommaLimit.prepend {us : List Token} (h : CommaLimit us) (ts : List Token) :
    CommaLimit (ts ++ us) := by
  obtain ⟨before, limit, n, e, p, q, rfl, isLimit, reads, comma⟩ := h
  exact ⟨ts ++ before, limit, n, e, p, q, by simp, isLimit, reads, comma⟩

end CanonicalSql
