import CanonicalSql.Proofs.Printable

/-! Printed data stay data.  Whatever strings and names a tree holds, its text falls into words and signs
of the grammar and one token for each datum, in their order: no string ends early, no name is taken for
a sign, nothing opens a comment, and nothing ends the statement. -/

namespace CanonicalSql

/-! ### Tokens that show data -/

/-- Whether a token is a name and as such `name`. -/
def Token.IsName (t : Token) (name : String) : Prop :=
  t.kind = .ident name ∨ t.kind = .quotedIdent name

/-- Whether a token shows a datum.  Names are names, bare or quoted, but where any word will do a keyword
can be one too. -/
def Token.Shows (t : Token) : Datum → Prop
  | .string value => t.kind = .string value
  | .name n => t.IsName n
  | .functionName n =>
    t.IsName n ∨ (t.kind = .keyword .LEFT ∨ t.kind = .keyword .RIGHT) ∧ t.text = n
  | .label n => t.IsName n ∨ (∃ k, t.kind = .keyword k) ∧ t.text = n
  | .unit u => t.kind = .ident u
  | .number s => t.kind = .number s
  | .placeholder .anonymous => t.kind = .question
  | .placeholder (.numbered n) => t.kind = .questionNumber n
  | .placeholder (.named n) => t.kind = .colonParam n
  | .placeholder (.dollar n) => t.kind = .dollarParam n

/-- Whether a token is a word or a sign of the grammar, and none that ends a statement. -/
def Token.IsFixed (t : Token) : Prop :=
  (∃ k : Keyword, t.kind = .keyword k ∧ t.text = k.text) ∨
    (∃ w : Word, t.kind = .ident w.text ∧ t.text = w.text) ∨
    ∃ s : Symbol, t.kind = .symbol s ∧ s ≠ .semicolon

/-- The tokens of a text that shows the data: a token for each datum, in their order, and between these
tokens words and signs of the grammar only. -/
inductive Showing : List Datum → List Token → Prop
  | done {p : Position} : Showing [] [.endMark p]
  | fixed {ds : List Datum} {t : Token} {ts : List Token} :
      t.IsFixed → Showing ds ts → Showing ds (t :: ts)
  | datum {d : Datum} {ds : List Datum} {t : Token} {ts : List Token} :
      t.Shows d → Showing ds ts → Showing (d :: ds) (t :: ts)

theorem Token.Shows.kind_ne_semicolon {t : Token} {d : Datum} (h : t.Shows d) :
    t.kind ≠ .symbol .semicolon := by
  intro semicolon
  rcases d with _ | _ | _ | _ | _ | _ | _ | _ | _ | _ <;> simp_all [Token.Shows, Token.IsName]

theorem Token.IsFixed.kind_ne_semicolon {t : Token} (h : t.IsFixed) :
    t.kind ≠ .symbol .semicolon := by
  rcases h with ⟨k, hk, -⟩ | ⟨w, hw, -⟩ | ⟨s, hs, other⟩
  · simp [hk]
  · simp [hw]
  · simpa [hs] using other

/-- None of the tokens ends the statement. -/
theorem Showing.kind_ne_semicolon {ds : List Datum} {ts : List Token} (h : Showing ds ts) :
    ∀ t ∈ ts, t.kind ≠ .symbol .semicolon := by
  induction h with
  | done => simp [Token.endMark]
  | fixed first _ ih => exact List.forall_mem_cons.2 ⟨first.kind_ne_semicolon, ih⟩
  | datum first _ ih => exact List.forall_mem_cons.2 ⟨first.kind_ne_semicolon, ih⟩

/-! ### Pieces and their tokens -/

/-- A printed name is read as the name, or as a keyword if it can stand bare as one. -/
theorem isName_of_nameKind {t : Token} {plain : Bool} {name : String} {special : Keyword → Prop}
    (hk : t.kind = Piece.nameKind plain name)
    (ht : t.text = String.ofList (Piece.nameChars plain name))
    (hp : plain = true → ∀ k, Keyword.ofWord? name = some k → special k) :
    t.IsName name ∨ (∃ k, t.kind = .keyword k ∧ special k) ∧ t.text = name := by
  cases plain with
  | false => exact .inl (.inr hk)
  | true =>
    have written : t.text = name := by simpa [Piece.nameChars] using ht
    cases word : Keyword.ofWord? name with
    | none => exact .inl (.inl (by simpa [Piece.nameKind, Lexeme.wordKind, word] using hk))
    | some k =>
      refine .inr ⟨⟨k, ?_, hp rfl k word⟩, written⟩
      simpa [Piece.nameKind, Lexeme.wordKind, word] using hk

theorem isName_of_plain {t : Token} {plain : Bool} {name : String}
    (hk : t.kind = Piece.nameKind plain name)
    (ht : t.text = String.ofList (Piece.nameChars plain name))
    (hp : plain = true → isPlainName name = true) : t.IsName name := by
  have noKeyword : plain = true → ∀ k, Keyword.ofWord? name = some k → False := by
    intro plain k word
    rw [ofWord?_of_isPlainName (hp plain)] at word
    cases word
  rcases isName_of_nameKind hk ht noKeyword with name | ⟨⟨_, _, impossible⟩, _⟩
  · exact name
  · exact impossible.elim

variable {p : Piece} {ps : List Piece} {t : Token} {ts : List Token}

/-- A token that a piece with a datum is read as shows the datum. -/
theorem shows_of_datum? {d : Datum} (hd : p.datum? = some d) (hk : p.kind? = some t.kind)
    (ht : t.text = String.ofList p.chars) : t.Shows d := by
  cases p with
  | name n =>
    cases hd
    exact isName_of_plain (Option.some.inj hk).symm ht id
  | typeName n =>
    cases hd
    exact isName_of_plain (Option.some.inj hk).symm ht fun plain => (Bool.and_eq_true_iff.1 plain).1
  | functionName n =>
    cases hd
    have special : (isPlainName n || isFunctionKeyword n) = true →
        ∀ k, Keyword.ofWord? n = some k → k = .LEFT ∨ k = .RIGHT := by
      intro plain k word
      rcases Bool.or_eq_true_iff.1 plain with plain | function
      · rw [ofWord?_of_isPlainName plain] at word
        cases word
      · simpa [isFunctionKeyword, word, Keyword.namesFunction] using function
    refine (isName_of_nameKind (Option.some.inj hk).symm ht special).imp id ?_
    rintro ⟨⟨k, kind, rfl | rfl⟩, written⟩
    · exact ⟨.inl kind, written⟩
    · exact ⟨.inr kind, written⟩
  | label n =>
    cases hd
    have any : (isPlainName n || isWord n) = true →
        ∀ k, Keyword.ofWord? n = some k → True := fun _ _ _ => trivial
    refine (isName_of_nameKind (Option.some.inj hk).symm ht any).imp id ?_
    rintro ⟨⟨k, kind, -⟩, written⟩
    exact ⟨⟨k, kind⟩, written⟩
  | placeholder p =>
    cases hd
    cases p <;> exact (Option.some.inj hk).symm
  | unit u | number s | string v =>
    cases hd
    exact (Option.some.inj hk).symm
  | _ => cases hd

/-- A token that a piece without a datum is read as is fixed, if the piece ends no statement. -/
theorem isFixed_of_datum? (hd : p.datum? = none) (hp : p ≠ .symbol .semicolon)
    (hk : p.kind? = some t.kind) (ht : t.text = String.ofList p.chars) : t.IsFixed := by
  cases p with
  | keyword k => exact .inl ⟨k, (Option.some.inj hk).symm, by simpa [Piece.chars] using ht⟩
  | word w => exact .inr (.inl ⟨w, (Option.some.inj hk).symm, by simpa [Piece.chars] using ht⟩)
  | symbol s =>
    refine .inr (.inr ⟨s, (Option.some.inj hk).symm, ?_⟩)
    rintro rfl
    exact hp rfl
  | space | lineEnd => cases hk
  | _ => cases hd

/-- The tokens that pieces are read as show the data of the pieces. -/
theorem showing_of_spelled (hp : ∀ p ∈ ps, p ≠ .symbol .semicolon)
    (h : ts.map Token.spelled = tokensOf ps ++ [.endMark]) : Showing (Piece.data ps) ts := by
  induction ps generalizing ts with
  | nil =>
    obtain ⟨t, rfl, mark⟩ := List.map_eq_singleton_iff.1 h
    obtain ⟨kind, text, position⟩ := t
    cases mark
    exact .done
  | cons p ps ih =>
    rw [List.forall_mem_cons] at hp
    cases hk : p.kind? with
    | none =>
      have noDatum : p.datum? = none := by cases p <;> first | rfl | cases hk
      rw [Piece.data_fixed noDatum]
      exact ih hp.2 (by simpa [tokensOf, Piece.token?, hk] using h)
    | some k =>
      have first : tokensOf (p :: ps) = ⟨k, String.ofList p.chars⟩ :: tokensOf ps := by
        simp [tokensOf, Piece.token?, hk]
      rw [first, List.cons_append] at h
      obtain ⟨t, ts, rfl, spelled, others⟩ := List.map_eq_cons_iff.1 h
      obtain ⟨rfl, text⟩ : t.kind = k ∧ t.text = String.ofList p.chars :=
        Spelled.mk.injEq .. ▸ spelled
      cases hd : p.datum? with
      | none =>
        rw [Piece.data_fixed hd]
        exact .fixed (isFixed_of_datum? hd hp.1 hk text) (ih hp.2 others)
      | some d =>
        have data : Piece.data (p :: ps) = d :: Piece.data ps := by simp [Piece.data, hd]
        rw [data]
        exact .datum (shows_of_datum? hd hk text) (ih hp.2 others)

/-! ### Statements -/

/-- Nothing breaks out of a statement: if the data that are printed as they are have the right form,
its text can be lexed whatever the other data are, none of its tokens ends the statement, there is
nothing but blanks between them, and they show the data, each in one token and all in order. -/
theorem tokenize_sql {statement : Statement} (h : ∀ d ∈ statement.data, d.Legible) :
    ∃ tokens, tokenize (sql statement) = .ok tokens ∧
      (∀ t ∈ tokens, t.kind ≠ .symbol .semicolon) ∧
      Spread .start (sql statement).toList tokens ∧ Showing statement.data tokens := by
  obtain ⟨tokens, lexed, spelled, spread⟩ := tokenize_text (Statement.printable h)
  have showing := showing_of_spelled statement.coherent.2 spelled
  rw [statement.data_pieces] at showing
  exact ⟨tokens, lexed, showing.kind_ne_semicolon, spread, showing⟩

/-- A string and an alias with quotes, a comment and a semicolon in them, in a `SELECT` that has
an empty list of columns next to it. -/
theorem tokenize_sql_quotes :
    ∃ statement : Statement,
      sql statement = "SELECT 'it''s; -- ' AS \"a\"\"b /*\", 1 IN ()" ∧
      (∀ d ∈ statement.data, d.Legible) ∧
      ∃ tokens, tokenize (sql statement) = .ok tokens ∧
        (∀ t ∈ tokens, t.kind ≠ .symbol .semicolon) ∧
        Spread .start (sql statement).toList tokens ∧ Showing statement.data tokens := by
  let statement := Statement.select (.ofBody (.block
    ⟨false, [.expr (.string "it's; -- ") (some "a\"b /*"),
      .expr (.member (.number "1") (.list []) false) none], none, none, [], none⟩))
  have legible : ∀ d ∈ statement.data, d.Legible := by
    change ∀ d ∈ [Datum.string _, .name _, .number _], d.Legible
    simp only [List.forall_mem_cons]
    exact ⟨trivial, trivial, rfl, List.forall_mem_nil _⟩
  exact ⟨statement, by decide +kernel, legible, tokenize_sql legible⟩

end CanonicalSql
