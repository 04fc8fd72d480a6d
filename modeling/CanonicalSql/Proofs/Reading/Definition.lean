import CanonicalSql.Proofs.Reading.Change

/-! Reading back the statements that define objects.  Behind the expression of a column option there
can be the words `NOT NULL`; they continue no expression, as `NULL` is no test. -/

namespace CanonicalSql

open Keyword Word CanonicalSql.Symbol

namespace Grammar

open Parse

variable {g : Grammar} {size : Nat} {r s : List Spelled} {ts : List Terminal}

/-! ### Columns -/

/-- What can follow a column.  Words that give a place follow only an added column. -/
def columnEnds (beforePlace : Bool) : List Terminal :=
  if beforePlace then [.word FIRST, .word AFTER, .symbol comma, .symbol semicolon]
  else [.symbol comma, .symbol rightParen, .symbol semicolon]

/-- The first words of column options, but for `NOT`. -/
def optionWords : List Terminal :=
  [NULL, DEFAULT, MATERIALIZED, ALIAS, PRIMARY, UNIQUE, CHECK, COMMENT, REFERENCES]

/-- What can follow a column option: another one, or the end of the column. -/
def AfterOption (r : List Spelled) : Prop :=
  Begins (optionWords ++ (columnEnds true ++ columnEnds false)) r ∨
    ∃ s, r = (Terminal.keyword NOT).spelled :: (Terminal.keyword NULL).spelled :: s

theorem AfterOption.admits (h : AfterOption r) {t : Terminal}
    (ht : t ∉ optionWords ++ (columnEnds true ++ columnEnds false)) (hn : t ≠ NOT) :
    t.admits (kindAt r 0) = false := by
  rcases h with h | ⟨s, rfl⟩
  · exact h.admits ht
  · simp [hn]

/-- An expression ends in front of a column option. -/
theorem AfterOption.ends (h : AfterOption r) (level : Nat) : Ends level false r := by
  rcases h with h | ⟨s, rfl⟩
  · exact .of_begins h (by decide)
  · exact ⟨(fun c hc => by cases hc), rfl, rfl, rfl, (fun h => by cases h)⟩

theorem tokensOf_options (options : List ColumnOption) :
    tokensOf (options.flatMap fun option => .space :: option.pieces) =
      options.flatMap fun option => tokensOf option.pieces := by
  induction options with
  | nil => rfl
  | cons option options ih => simp [ih]

theorem afterOption (option : ColumnOption) (s : List Spelled) :
    AfterOption (tokensOf option.pieces ++ s) := by
  cases option with
  | notNull =>
    right
    exact ⟨s, by simp [ColumnOption.pieces]⟩
  | references target =>
    left
    simp only [ColumnOption.pieces, ForeignReference.pieces, tokensOf_append, tokensOf_ahead,
      tokensOf_keyword]
    exact .cons (by decide) _
  | check condition =>
    left
    simp only [ColumnOption.pieces, checkPieces, tokensOf_append, tokensOf_ahead, tokensOf_keyword]
    exact .cons (by decide) _
  | _ =>
    left
    simp only [ColumnOption.pieces, tokensOf_append, tokensOf_ahead, tokensOf_phrase,
      tokensOf_keyword]
    exact .cons (by decide) _

theorem afterOptions {beforePlace : Bool} (options : List ColumnOption)
    (hr : Begins (columnEnds beforePlace) r) :
    AfterOption ((options.flatMap fun option => tokensOf option.pieces) ++ r) := by
  cases options with
  | nil => exact .inl (hr.mono (by cases beforePlace <;> decide))
  | cons option options =>
    rw [List.flatMap_cons, List.append_assoc]
    exact afterOption option _

/-- A condition to check is read with the parentheses around it. -/
theorem Reads.checked (hg : g.Reads size) {e : Expr} (he : e.WellFormed)
    (hs : (tokensOf (Piece.parens e.pieces)).length < size) {beforeOver : Bool} (hr : Ends 0 beforeOver r) :
    g.anyExpr.Reads (1 + e.levels false) (tokensOf (Piece.parens e.pieces) ++ r) e r := by
  have read := @Reads.expr g size hg true beforeOver e 0 r he (fun h => by cases h) hs hr
  refine read.cast ?_
  rw [Expr.groupedLevels, Expr.levels, if_pos rfl, ← add_assoc]
  rfl

theorem reads_foreignReference (target : ForeignReference)
    (hd : (Terminal.symbol dot).admits (kindAt r 0) = false)
    (hr : (Terminal.symbol leftParen).admits (kindAt r 0) = false) :
    foreignReference.Reads 0 (tokensOf target.pieces ++ r) target r := by
  obtain ⟨table, columns⟩ := target
  simp only [ForeignReference.pieces, tokensOf_append, tokensOf_ahead, tokensOf_keyword,
    tokensOf_nil, List.cons_append, List.nil_append, List.append_assoc]
  unfold Grammar.foreignReference
  refine (reads_expect (Terminal.admits_self REFERENCES) _).next ?_
  refine (reads_qualifiedName table ?_).next ?_
  · cases columns with
    | nil => exact hd
    | cons column columns => rfl
  · exact (reads_optionalNameList columns fun _ => hr).next (.pure _ r)

theorem Reads.columnOption (hg : g.Reads size) {option : ColumnOption} (hw : option.WellFormed)
    (hs : (tokensOf option.pieces).length ≤ size) (hr : AfterOption r) :
    g.columnOption.Reads option.levels (tokensOf option.pieces ++ r) (some option) r := by
  have ends := hr.ends 0
  unfold Grammar.columnOption
  cases option with
  | null =>
    rw [ColumnOption.pieces, tokensOf_keyword]
    exact .accepted (Terminal.admits_self NULL) (.pure _ r)
  | notNull =>
    simp only [ColumnOption.pieces, tokensOf_phrase, tokensOf_keyword, tokensOf_nil,
      List.cons_append, List.nil_append]
    refine .rejected rfl (.accepted (Terminal.admits_self NOT) ?_)
    exact (reads_expect (Terminal.admits_self NULL) r).next (.pure _ r)
  | default value =>
    simp only [ColumnOption.pieces, tokensOf_append, tokensOf_ahead, tokensOf_keyword,
      tokensOf_nil, List.cons_append, List.nil_append, List.length_cons] at hs ⊢
    refine .rejected rfl (.rejected rfl (.accepted (Terminal.admits_self DEFAULT) ?_))
    exact (hg.anyExpr hw (by omega) ends).last (.pure _ r)
  | materialized value =>
    simp only [ColumnOption.pieces, tokensOf_append, tokensOf_ahead, tokensOf_keyword,
      tokensOf_nil, List.cons_append, List.nil_append, List.length_cons] at hs ⊢
    refine .rejected rfl (.rejected rfl (.rejected rfl
      (.accepted (Terminal.admits_self MATERIALIZED) ?_)))
    exact (hg.anyExpr hw (by omega) ends).last (.pure _ r)
  | computed value =>
    simp only [ColumnOption.pieces, tokensOf_append, tokensOf_ahead, tokensOf_keyword,
      tokensOf_nil, List.cons_append, List.nil_append, List.length_cons] at hs ⊢
    refine .rejected rfl (.rejected rfl (.rejected rfl (.rejected rfl
      (.accepted (Terminal.admits_self ALIAS) ?_))))
    exact (hg.anyExpr hw (by omega) ends).last (.pure _ r)
  | primaryKey =>
    simp only [ColumnOption.pieces, tokensOf_phrase, tokensOf_keyword, tokensOf_word, tokensOf_nil,
      List.cons_append, List.nil_append]
    refine .rejected rfl (.rejected rfl (.rejected rfl (.rejected rfl (.rejected rfl
      (.accepted (Terminal.admits_self PRIMARY) ?_)))))
    exact (reads_expect (Terminal.admits_self KEY) r).next (.pure _ r)
  | unique =>
    rw [ColumnOption.pieces, tokensOf_keyword]
    exact .rejected rfl (.rejected rfl (.rejected rfl (.rejected rfl (.rejected rfl
      (.rejected rfl (.accepted (Terminal.admits_self UNIQUE) (.pure _ r)))))))
  | check condition =>
    simp only [ColumnOption.pieces, checkPieces, tokensOf_append, tokensOf_ahead,
      tokensOf_keyword, tokensOf_nil, List.cons_append, List.nil_append, List.length_cons] at hs ⊢
    refine .rejected rfl (.rejected rfl (.rejected rfl (.rejected rfl (.rejected rfl
      (.rejected rfl (.rejected rfl (.accepted (Terminal.admits_self CHECK) ?_)))))))
    exact (hg.checked hw (by omega) ends).last (.pure _ r)
  | comment text =>
    simp only [ColumnOption.pieces, tokensOf_phrase, tokensOf_keyword, tokensOf_string,
      tokensOf_nil, List.cons_append, List.nil_append]
    refine .rejected rfl (.rejected rfl (.rejected rfl (.rejected rfl (.rejected rfl
      (.rejected rfl (.rejected rfl (.rejected rfl
        (.accepted (Terminal.admits_self COMMENT) ?_))))))))
    exact (reads_stringLiteral text .comment r).next (.pure _ r)
  | references target =>
    have read := reads_foreignReference target ends.noDot ends.noCall
    rw [ColumnOption.pieces]
    have start : ∀ t : Terminal, t.admits (kindAt (tokensOf target.pieces ++ r) 0) =
        decide (t = .keyword REFERENCES) := by
      intro t
      simp [ForeignReference.pieces]
    refine .rejected (start _) (.rejected (start _) (.rejected (start _) (.rejected (start _)
      (.rejected (start _) (.rejected (start _) (.rejected (start _) (.rejected (start _)
        (.rejected (start _) (.seen (start _) (read.next (.pure _ r)))))))))))

/-- Where no word of an option is ahead, there is no further option. -/
theorem reads_columnOption_none {beforePlace : Bool} (hr : Begins (columnEnds beforePlace) r) :
    g.columnOption.Reads 0 r none r := by
  have absent : ∀ k : Keyword, (Terminal.keyword k).admits (kindAt r 0) = false :=
    fun k => hr.admits (by cases beforePlace <;> simp [columnEnds])
  unfold Grammar.columnOption
  exact .rejected (absent _) (.rejected (absent _) (.rejected (absent _) (.rejected (absent _)
    (.rejected (absent _) (.rejected (absent _) (.rejected (absent _) (.rejected (absent _)
      (.rejected (absent _) (.unseen (absent _) (.pure none r))))))))))

theorem Reads.columnOptions (hg : g.Reads size) {beforePlace : Bool} {options : List ColumnOption}
    (hw : ∀ option ∈ options, option.WellFormed)
    (hs : (options.flatMap fun option => tokensOf option.pieces).length ≤ size) (count : Nat)
    (enough : options.length ≤ count) (hr : Begins (columnEnds beforePlace) r) :
    (g.columnOptions count).Reads (greatest ColumnOption.levels options)
      ((options.flatMap fun option => tokensOf option.pieces) ++ r) options r := by
  induction options generalizing count with
  | nil =>
    cases count with
    | zero => exact .pure [] r
    | succ count => exact (reads_columnOption_none hr).next (.pure [] r)
  | cons option options ih =>
    obtain ⟨count, rfl⟩ : ∃ m, count = m + 1 := ⟨count - 1, by simp at enough; omega⟩
    rw [List.flatMap_cons, List.length_append] at hs
    rw [List.flatMap_cons, List.append_assoc]
    have others := ih (fun other hm => hw other (by simp [hm])) (by omega) count
      (by simpa using enough)
    unfold Grammar.columnOptions
    refine .bind (hg.columnOption (hw option (by simp)) (by omega) (afterOptions options hr)) ?_
    exact others.last (.pure _ r)

theorem length_le_options (options : List ColumnOption) :
    options.length ≤ (options.flatMap fun option => tokensOf option.pieces).length := by
  induction options with
  | nil => exact Nat.zero_le _
  | cons option options ih =>
    have first : 0 < (tokensOf option.pieces).length := by
      cases option <;> simp [ColumnOption.pieces, checkPieces, ForeignReference.pieces]
    rw [List.flatMap_cons, List.length_append, List.length_cons]
    omega

/-- The name of a type is written so that it is not taken for the place of a column. -/
theorem startsColumnType_typeNameToken (beforePlace : Bool) (name : String) :
    startsColumnType beforePlace (typeNameToken name).kind = true := by
  cases plain : isPlainName name && !isColumnPlaceWord name with
  | false => simp [typeNameToken, writtenName, plain, Piece.nameKind, startsColumnType]
  | true =>
    have kind : (typeNameToken name).kind = .ident name := by
      rw [typeNameToken, plain]
      exact wordKind_of_isPlainName (Bool.and_eq_true _ _ ▸ plain).1
    rw [Bool.and_eq_true, Bool.not_eq_true'] at plain
    rw [kind, startsColumnType, plain.2, Bool.and_false]
    rfl

theorem startsColumnType_end {beforePlace : Bool} (hr : Begins (columnEnds beforePlace) r) :
    startsColumnType beforePlace (kindAt r 0) = false := by
  rcases hr with rfl | ⟨t, ht, s, rfl⟩
  · rfl
  · rw [kindAt_cons_zero]
    cases beforePlace with
    | false =>
      rcases (by simpa [columnEnds] using ht : t = comma ∨ t = rightParen ∨ t = semicolon) with
        rfl | rfl | rfl <;> rfl
    | true =>
      rcases (by simpa [columnEnds] using ht :
        t = FIRST ∨ t = AFTER ∨ t = comma ∨ t = semicolon) with rfl | rfl | rfl | rfl <;> decide

theorem startsColumnType_options {beforePlace : Bool} (options : List ColumnOption)
    (hr : Begins (columnEnds beforePlace) r) :
    startsColumnType beforePlace
      (kindAt ((options.flatMap fun option => tokensOf option.pieces) ++ r) 0) = false := by
  cases options with
  | nil => exact startsColumnType_end hr
  | cons option options =>
    rw [List.flatMap_cons, List.append_assoc]
    cases option <;> simp [ColumnOption.pieces, checkPieces, ForeignReference.pieces] <;> rfl

/-- The tokens of a type that may be missing. -/
def typeTokens : Option DataType → List Spelled
  | none => []
  | some type => tokensOf type.pieces

theorem tokensOf_columnDefinition (name : String) (type : Option DataType)
    (options : List ColumnOption) : tokensOf (ColumnDefinition.pieces ⟨name, type, options⟩) =
      nameToken name :: (typeTokens type ++
        options.flatMap fun option => tokensOf option.pieces) := by
  rw [← tokensOf_options]
  unfold ColumnDefinition.pieces
  cases type <;> simp [typeTokens]

theorem Reads.columnDefinition (hg : g.Reads size) {beforePlace : Bool} {c : ColumnDefinition}
    (hw : c.WellFormed) (hs : (tokensOf c.pieces).length ≤ size)
    (hr : Begins (columnEnds beforePlace) r) :
    (g.columnDefinition beforePlace).Reads c.levels (tokensOf c.pieces ++ r) c r := by
  obtain ⟨name, type, options⟩ := c
  obtain ⟨-, wellFormed⟩ := hw
  dsimp only at wellFormed
  rw [tokensOf_columnDefinition] at hs ⊢
  simp only [List.length_cons, List.length_append, List.cons_append, List.append_assoc] at hs ⊢
  have after := afterOptions options hr
  have rest : Parse.Reads (do return ⟨name, type, ← g.columnOptions (← remaining)⟩)
      (greatest ColumnOption.levels options)
      ((options.flatMap fun option => tokensOf option.pieces) ++ r)
      (ColumnDefinition.mk name type options) r := by
    have shorter := length_le_options options
    refine (reads_remaining _).next ?_
    refine .last (hg.columnOptions wellFormed (by omega) _ ?_ hr) (.pure _ r)
    rw [List.length_append]
    omega
  unfold Grammar.columnDefinition
  refine (reads_identifier (name?_nameToken name) _).next ((reads_peek _).next ?_)
  cases type with
  | none =>
    rw [typeTokens, List.nil_append, startsColumnType_options options hr]
    exact .next (.pure none _) rest
  | some type =>
    have start : startsColumnType beforePlace (kindAt (tokensOf type.pieces ++
        ((options.flatMap fun option => tokensOf option.pieces) ++ r)) 0) = true := by
      obtain ⟨name, args⟩ := type
      rw [DataType.pieces, tokensOf_typeName]
      exact startsColumnType_typeNameToken beforePlace name
    rw [typeTokens] at hs ⊢
    rw [start]
    exact .next (.map (hg.dataType (by omega) (after.ends 0).noCall)) rest

/-! ### Tables -/

/-- What can follow an element of a table. -/
def elementEnds : List Terminal := [comma, rightParen]

theorem Reads.constraintKind (hg : g.Reads size) {kind : ConstraintKind} (hw : kind.WellFormed)
    (hs : (tokensOf kind.pieces).length ≤ size) (hr : Begins elementEnds r) :
    g.constraintKind.Reads (TableElement.levels (.constraint ⟨none, kind⟩))
      (tokensOf kind.pieces ++ r) kind r := by
  unfold Grammar.constraintKind
  cases kind with
  | primaryKey columns =>
    simp only [ConstraintKind.pieces, tokensOf_append, tokensOf_ahead, tokensOf_keyword,
      tokensOf_word, tokensOf_nil, List.cons_append, List.nil_append]
    refine .accepted (Terminal.admits_self PRIMARY) ?_
    refine (reads_expect (Terminal.admits_self KEY) _).next ?_
    exact (reads_nameList hw r).next (.pure _ r)
  | unique columns =>
    simp only [ConstraintKind.pieces, tokensOf_append, tokensOf_ahead, tokensOf_keyword,
      tokensOf_nil, List.cons_append, List.nil_append]
    refine .rejected rfl (.accepted (Terminal.admits_self UNIQUE) ?_)
    exact (reads_nameList hw r).next (.pure _ r)
  | check condition =>
    simp only [ConstraintKind.pieces, checkPieces, tokensOf_append, tokensOf_ahead,
      tokensOf_keyword, tokensOf_nil, List.cons_append, List.nil_append, List.length_cons] at hs ⊢
    refine .rejected rfl (.rejected rfl (.accepted (Terminal.admits_self CHECK) ?_))
    exact (hg.checked hw (by omega) (.of_begins hr (by decide))).last (.pure _ r)
  | foreignKey columns target =>
    simp only [ConstraintKind.pieces, tokensOf_append, tokensOf_ahead, tokensOf_keyword,
      tokensOf_word, tokensOf_space, tokensOf_nil, List.cons_append, List.nil_append,
      List.append_assoc]
    refine .rejected rfl (.rejected rfl (.rejected rfl
      (.accepted (Terminal.admits_self FOREIGN) ?_)))
    refine (reads_expect (Terminal.admits_self KEY) _).next ?_
    refine (reads_nameList hw _).next ?_
    exact (reads_foreignReference target (hr.admits (by decide)) (hr.admits (by decide))).next
      (.pure _ r)

theorem startsConstraint_kind (kind : ConstraintKind) (s : List Spelled) :
    startsConstraint (kindAt (tokensOf kind.pieces ++ s) 0) = true := by
  cases kind <;> simp [ConstraintKind.pieces, checkPieces] <;> rfl

theorem Reads.tableElement (hg : g.Reads size) {element : TableElement} (hw : element.WellFormed)
    (hs : (tokensOf element.pieces).length ≤ size) (hr : Begins elementEnds r) :
    g.tableElement.Reads element.levels (tokensOf element.pieces ++ r) element r := by
  unfold Grammar.tableElement
  refine (reads_peek _).next ?_
  cases element with
  | column c =>
    rw [TableElement.pieces] at hs ⊢
    have start : startsConstraint (kindAt (tokensOf c.pieces ++ r) 0) = false := by
      obtain ⟨name, type, options⟩ := c
      rw [tokensOf_columnDefinition, List.cons_append, kindAt_cons_zero]
      have written := name?_nameToken name
      cases hk : (nameToken name).kind <;> first | rfl | simp [hk, Token.Kind.name?] at written
    rw [start]
    exact (hg.columnDefinition hw hs (hr.mono (by decide))).last (.pure _ r)
  | constraint c =>
    obtain ⟨name, kind⟩ := c
    rw [TableElement.WellFormed] at hw
    dsimp only at hw
    have levels : TableElement.levels (.constraint ⟨name, kind⟩) =
        TableElement.levels (.constraint ⟨none, kind⟩) := by
      cases kind <;> rfl
    rw [TableElement.pieces] at hs ⊢
    rw [levels]
    unfold Grammar.tableConstraint
    cases name with
    | none =>
      have printed : TableConstraint.pieces ⟨none, kind⟩ = kind.pieces := rfl
      rw [printed] at hs ⊢
      have absent : (Terminal.keyword CONSTRAINT).admits (kindAt (tokensOf kind.pieces ++ r) 0) =
          false := by
        cases kind <;> simp [ConstraintKind.pieces, checkPieces]
      rw [startsConstraint_kind]
      exact .last (.next (.optional_none absent) ((hg.constraintKind hw hs hr).last (.pure _ r)))
        (.pure _ r)
    | some name =>
      have printed : tokensOf (TableConstraint.pieces ⟨some name, kind⟩) =
          (Terminal.keyword CONSTRAINT).spelled :: nameToken name :: tokensOf kind.pieces := by
        simp [TableConstraint.pieces]
      rw [printed] at hs ⊢
      simp only [List.length_cons] at hs
      refine .last (.next (.optional_some (Terminal.admits_self CONSTRAINT)
        (reads_identifier (name?_nameToken name) _)) ?_) (.pure _ r)
      exact (hg.constraintKind hw (by omega) hr).last (.pure _ r)

/-- The tokens of the elements that a table may have. -/
def elementsTokens (elements : List TableElement) : List Spelled :=
  if elements.isEmpty then []
  else tokensOf (Piece.parens (Piece.commas (elements.map TableElement.pieces)))

theorem begins_elementsTokens (h : Begins ts r) (elements : List TableElement) :
    Begins (.symbol leftParen :: ts) (elementsTokens elements ++ r) := by
  cases elements with
  | nil => exact h.weaken leftParen
  | cons element elements => exact .first _ ts _

theorem Reads.tableElements (hg : g.Reads size) {elements : List TableElement}
    (hw : ∀ element ∈ elements, element.WellFormed)
    (hs : (elementsTokens elements).length ≤ size)
    (hr : (Terminal.symbol leftParen).admits (kindAt r 0) = false) :
    g.tableElements.Reads (greatest TableElement.levels elements) (elementsTokens elements ++ r)
      elements r := by
  unfold Grammar.tableElements
  cases elements with
  | nil => exact .optionalList_none hr
  | cons element elements =>
    have printed : elementsTokens (element :: elements) =
        tokensOf (Piece.parens (Piece.commas ((element :: elements).map TableElement.pieces))) :=
      rfl
    rw [printed, tokensOf_parens] at hs ⊢
    simp only [List.length_cons, List.length_append, List.cons_append, List.append_assoc] at hs ⊢
    refine .optionalList_some (Terminal.admits_self leftParen) ?_
    refine .last (.commaList (List.cons_ne_nil _ _) (fun e hm r' after => ?_) (by simp)) ?_
    · have shorter := length_le_commas TableElement.pieces hm
      refine hg.tableElement (hw e hm) (by omega) ?_
      rcases after with rfl | ⟨s, rfl⟩
      · exact .cons (by decide) _
      · exact .cons (by decide) _
    · exact (reads_expect (Terminal.admits_self rightParen) r).next (.pure _ r)

/-! ### Engines -/

/-- The tokens of the engine that an object may have. -/
def engineTokens : Option Engine → List Spelled
  | none => []
  | some e => (Terminal.word ENGINE).spelled :: (Terminal.symbol equal).spelled ::
      tokensOf e.pieces

theorem tokensOf_engineClause (e : Option Engine) :
    tokensOf (engineClause e) = engineTokens e := by
  cases e <;> simp [engineClause, engineTokens]

theorem begins_engineTokens (h : Begins ts r) (e : Option Engine) :
    Begins (.word ENGINE :: ts) (engineTokens e ++ r) := by
  cases e with
  | none => exact h.weaken ENGINE
  | some e => exact .first _ ts _

theorem Reads.engine (hg : g.Reads size) {e : Option Engine} (hw : ∀ a ∈ e, a.WellFormed)
    (hs : (engineTokens e).length ≤ size) (hr : Begins ts r) (ht : .word ENGINE ∉ ts)
    (hp : .symbol leftParen ∉ ts) :
    (optional ENGINE g.engine).Reads (levelsIn Engine.levels e) (engineTokens e ++ r) e r := by
  cases e with
  | none => exact .optional_none (hr.admits ht)
  | some e =>
    obtain ⟨name, args⟩ := e
    have wellFormed := hw _ rfl
    rw [engineTokens] at hs ⊢
    rw [List.cons_append, List.cons_append]
    refine .optional_some (Terminal.admits_self ENGINE) ?_
    unfold Grammar.engine
    refine (reads_accept (Terminal.admits_self equal) _).discard.next ?_
    cases args with
    | none =>
      have printed : tokensOf (Engine.pieces ⟨name, none⟩) = [labelToken name] := rfl
      rw [printed]
      refine (reads_label name .engineName r).next ?_
      exact .next (.optional_none (hr.admits hp)) (.pure _ r)
    | some args =>
      have printed : tokensOf (Engine.pieces ⟨name, some args⟩) =
          labelToken name :: tokensOf (Piece.parens (Piece.commas (Expr.each args))) := by
        simp [Engine.pieces]
      have expressions : Expr.AllWellFormed args := Expr.allWellFormed_iff.2 (wellFormed args rfl)
      simp only [printed, tokensOf_parens, List.length_cons, List.length_append] at hs
      rw [printed, tokensOf_parens, List.cons_append, List.cons_append, List.append_assoc]
      refine (reads_label name .engineName _).next ?_
      refine .cast (.last (.optional_some (Terminal.admits_self leftParen) (.last
        (hg.exprsUpTo (c := rightParen) expressions (by omega) (by decide) (by decide) rfl r)
        ((reads_expect (Terminal.admits_self rightParen) r).next (.pure _ r)))) (.pure _ r)) ?_
      exact Expr.allLevels_eq args

/-! ### The storage of tables -/

/-- The tokens of an expression that may be missing, behind its words. -/
def storageTokens (head : List Terminal) : Option Expr → List Spelled
  | none => []
  | some e => head.map Terminal.spelled ++ tokensOf e.pieces

theorem tokensOf_storageClause {head : List Piece} {ts : List Terminal}
    (h : tokensOf head = ts.map Terminal.spelled) (e : Option Expr) :
    tokensOf (storageClause head e) = storageTokens ts e := by
  cases e <;> simp [storageClause, storageTokens, h]

theorem begins_storageTokens {t : Terminal} {head : List Terminal} (h : Begins ts r)
    (e : Option Expr) : Begins (t :: ts) (storageTokens (t :: head) e ++ r) := by
  cases e with
  | none => exact h.weaken t
  | some e => exact .first t ts _

/-- An expression behind two words, if it is there. -/
theorem Reads.storage (hg : g.Reads size) {t u : Terminal} {e : Option Expr}
    (hw : ∀ a ∈ e, a.WellFormed) (hs : (storageTokens [t, u] e).length ≤ size) (hr : Begins ts r)
    (ht : t ∉ ts) (hts : ts.all Terminal.endsExpr = true) :
    (optional t (expect u >>= fun _ => g.anyExpr)).Reads (levelsIn (Expr.levels false) e)
      (storageTokens [t, u] e ++ r) e r := by
  cases e with
  | none => exact .optional_none (hr.admits ht)
  | some e =>
    simp only [storageTokens, List.map_cons, List.map_nil, List.length_cons, List.cons_append,
      List.nil_append] at hs ⊢
    refine .optional_some (Terminal.admits_self t) ?_
    refine (reads_expect (Terminal.admits_self u) _).next ?_
    exact hg.anyExpr (hw e rfl) (by omega) (.of_begins hr hts)

/-- The key that a table is divided by, and what follows it. -/
theorem Reads.partition (hg : g.Reads size) {e : Option Expr} (hw : ∀ a ∈ e, a.WellFormed)
    (hs : (storageTokens [PARTITION, .keyword BY] e).length ≤ size) (hr : Begins ts r)
    (ht : .word PARTITION ∉ ts) (hts : ts.all Terminal.endsExpr = true) {β : Type}
    {f : Option Expr → Parse β} {n : ℕ∞} {b : β} (h : (f e).Reads n r b s) :
    (acceptAll [PARTITION, .keyword BY] >>= fun found =>
        if found = true then some <$> g.anyExpr >>= f else pure none >>= f).Reads
      (max (levelsIn (Expr.levels false) e) n) (storageTokens [PARTITION, .keyword BY] e ++ r) b
      s := by
  cases e with
  | none =>
    have absent : admitsAll r [.word PARTITION, .keyword BY] 0 = false := by
      simp [admitsAll, hr.admits ht]
    refine .cast ((reads_acceptAll_none absent).next (.next (.pure none r) h)) ?_
    exact (max_eq_right zero_le).symm
  | some e =>
    simp only [storageTokens, List.map_cons, List.map_nil, List.length_cons, List.cons_append,
      List.nil_append] at hs
    rw [storageTokens, List.append_assoc]
    refine (reads_acceptAll [.word PARTITION, .keyword BY] _).next (.bind (.map ?_) h)
    exact hg.anyExpr (hw e rfl) (by omega) (.of_begins hr hts)

/-- The tokens of the comment that a table may have. -/
def commentTokens : Option String → List Spelled
  | none => []
  | some c => [(Terminal.keyword COMMENT).spelled, stringToken c]

/-- The tokens of the query that a table may be filled from. -/
def asTokens : Option Query → List Spelled
  | none => []
  | some q => (Terminal.keyword AS).spelled :: tokensOf q.pieces

/-- The tokens of a new table behind its name and cluster. -/
def storedTokens (c : CreateTable) : List Spelled :=
  elementsTokens c.elements ++ (engineTokens c.engine ++
    (storageTokens [PARTITION, .keyword BY] c.partitionBy ++
      (storageTokens [PRIMARY, .word KEY] c.primaryKey ++
        (storageTokens [ORDER, BY] c.orderBy ++ (listTokens [SETTINGS] (Setting.each c.settings) ++
          (commentTokens c.comment ++ asTokens c.query))))))

/-- The tokens of phrases that may be missing. -/
def flagTokens (present : Bool) (ts : List Terminal) : List Spelled :=
  if present then ts.map Terminal.spelled else []

theorem tokensOf_flag_eq {present : Bool} {ps : List Piece} {ts : List Terminal}
    (h : tokensOf ps = ts.map Terminal.spelled) :
    tokensOf (Piece.flag present ps) = flagTokens present ts := by
  cases present <;> simp [flagTokens, h]

theorem tokensOf_createTable (c : CreateTable) :
    tokensOf c.pieces = (Terminal.keyword CREATE).spelled ::
      (flagTokens c.orReplace [OR, .word REPLACE] ++ (flagTokens c.temporary [.word TEMPORARY] ++
        (Terminal.keyword TABLE).spelled :: (tokensOf (ifNotExistsPieces c.ifNotExists) ++
          (tokensOf c.name.pieces ++ (tokensOf (clusterClause c.cluster) ++ storedTokens c))))) := by
  obtain ⟨orReplace, temporary, ifNotExists, name, cluster, elements, engine, partitionBy,
    primaryKey, orderBy, settings, comment, query⟩ := c
  have replaced : tokensOf (Piece.flag orReplace [OR, REPLACE]) =
      flagTokens orReplace [OR, .word REPLACE] := tokensOf_flag_eq (by simp)
  have temporaries : tokensOf (Piece.flag temporary [TEMPORARY]) =
      flagTokens temporary [.word TEMPORARY] := tokensOf_flag_eq (by simp)
  have partitions : tokensOf (storageClause [PARTITION, BY] partitionBy) =
      storageTokens [PARTITION, .keyword BY] partitionBy := tokensOf_storageClause (by simp) _
  have keys : tokensOf (storageClause [PRIMARY, KEY] primaryKey) =
      storageTokens [PRIMARY, .word KEY] primaryKey := tokensOf_storageClause (by simp) _
  have orders : tokensOf (storageClause [ORDER, BY] orderBy) =
      storageTokens [ORDER, BY] orderBy := tokensOf_storageClause (by simp) _
  have sets : tokensOf (Piece.listClause [SETTINGS] (Setting.each settings)) =
      listTokens [SETTINGS] (Setting.each settings) := tokensOf_listClause _ (by simp)
  have listed : tokensOf (if elements.isEmpty then []
      else .space :: Piece.parens (Piece.commas (elements.map TableElement.pieces))) =
        elementsTokens elements := by
    cases elements <;> rfl
  simp only [CreateTable.pieces, storedTokens, tokensOf_append, tokensOf_ahead, replaced,
    temporaries, partitions, keys, orders, sets, tokensOf_engineClause, listed]
  cases comment <;> cases query <;> simp [commentTokens, asTokens]

/-! What can stand behind each clause of a table, from the last one to the first. -/

/-- What can follow the settings of a table. -/
def settingEnds : List Terminal := COMMENT :: AS :: statementEnds

/-- What can follow the primary key of a table. -/
def keyEnds : List Terminal := ORDER :: SETTINGS :: settingEnds

/-- What can follow the engine of a table. -/
def engineEnds : List Terminal := PARTITION :: PRIMARY :: keyEnds

/-- What can follow the name of a table. -/
def nameEnds : List Terminal := ON :: leftParen :: ENGINE :: engineEnds

theorem Reads.createTable (hg : g.Reads size) {c : CreateTable} (hw : c.WellFormed)
    (hs : (storedTokens c).length ≤ size) (hr : Begins statementEnds r) :
    (g.createTable c.orReplace c.temporary).Reads c.levels
      (tokensOf (ifNotExistsPieces c.ifNotExists) ++ (tokensOf c.name.pieces ++
        (tokensOf (clusterClause c.cluster) ++ (storedTokens c ++ r)))) c r := by
  obtain ⟨orReplace, temporary, ifNotExists, name, cluster, elements, engine, partitionBy,
    primaryKey, orderBy, settings, comment, query⟩ := c
  obtain ⟨helements, hengine, hpartition, hprimary, horder, hsettings, hquery, contents⟩ := hw
  dsimp only at helements hengine hpartition hprimary horder hsettings hquery contents
  have wellFormed : ∀ setting ∈ settings, setting.WellFormed := by
    rintro ⟨setting, value⟩ hm
    exact hsettings _ hm
  simp only [storedTokens, List.length_append, List.append_assoc] at hs ⊢
  have queryStart : Begins (AS :: statementEnds) (asTokens query ++ r) := by
    cases query with
    | none => exact hr.weaken AS
    | some query => exact .first _ _ _
  have commentStart : Begins settingEnds (commentTokens comment ++ (asTokens query ++ r)) := by
    cases comment with
    | none => exact queryStart.weaken COMMENT
    | some comment => exact .first _ _ _
  have settingStart : Begins (SETTINGS :: settingEnds)
      (listTokens [SETTINGS] (Setting.each settings) ++ _) := begins_listTokens commentStart _
  have orderStart : Begins keyEnds (storageTokens [ORDER, BY] orderBy ++ _) :=
    begins_storageTokens settingStart orderBy
  have primaryStart : Begins (PRIMARY :: keyEnds)
      (storageTokens [PRIMARY, .word KEY] primaryKey ++ _) :=
    begins_storageTokens orderStart primaryKey
  have partitionStart : Begins engineEnds
      (storageTokens [PARTITION, .keyword BY] partitionBy ++ _) :=
    begins_storageTokens primaryStart partitionBy
  have engineStart : Begins (.word ENGINE :: engineEnds) (engineTokens engine ++ _) :=
    begins_engineTokens partitionStart engine
  have elementStart : Begins (leftParen :: .word ENGINE :: engineEnds)
      (elementsTokens elements ++ _) := begins_elementsTokens engineStart elements
  have nameStart : Begins nameEnds (tokensOf (clusterClause cluster) ++ _) :=
    begins_clusterClause elementStart cluster
  unfold CreateTable.levels
  dsimp only
  unfold Grammar.createTable
  refine (reads_ifNotExists ifNotExists fun _ => admitsAll_second
    (admits_second name (by decide) (nameStart.admits (by decide)))).next ?_
  refine (reads_qualifiedName name (nameStart.admits (by decide))).next ?_
  refine (reads_onCluster cluster fun _ => elementStart.admits (by decide)).next ?_
  refine .bind (hg.tableElements helements (by omega) (engineStart.admits (by decide))) ?_
  refine .bind (hg.engine hengine (by omega) partitionStart (by decide) (by decide)) ?_
  refine hg.partition hpartition (by omega) primaryStart (by decide) (by decide) ?_
  refine .bind (hg.storage hprimary (by omega) orderStart (by decide) (by decide)) ?_
  refine .bind (hg.storage horder (by omega) settingStart (by decide) (by decide)) ?_
  refine .bind (hg.settingsClause wellFormed (by omega) commentStart (by decide) (by decide)
    (by decide)) ?_
  refine .next (a := comment) (r := asTokens query ++ r) ?_ ?_
  · cases comment with
    | none => exact .optional_none (queryStart.admits (by decide))
    | some comment =>
      exact .optional_some (Terminal.admits_self COMMENT) (reads_stringLiteral comment .comment _)
  refine .last (a := query) (r := r) ?_ ?_
  · cases query with
    | none => exact .optional_none (hr.admits (by decide))
    | some query =>
      rw [asTokens, List.length_cons] at hs
      exact .optional_some (Terminal.admits_self AS)
        (hg.query (hquery query rfl) (by omega) (hr.mono (by decide)))
  have present : (elements.isEmpty && query.isNone) = false := by
    cases elements with
    | cons element elements => rfl
    | nil =>
      rw [← Option.not_isSome, contents rfl]
      rfl
  simp only [present]
  exact .pure _ r

/-- A phrase in front of a definition is read if it is there. -/
theorem reads_flag {ts : List Terminal} (present : Bool)
    (hs : present = false → admitsAll s ts 0 = false) :
    (acceptAll ts).Reads 0 (flagTokens present ts ++ s) present s := by
  cases present with
  | false => exact reads_acceptAll_none (hs rfl)
  | true => exact reads_acceptAll ts s

theorem Reads.create_table (hg : g.Reads size) {c : CreateTable} (hw : c.WellFormed)
    (hs : (tokensOf c.pieces).length ≤ size) (hr : Begins statementEnds r) :
    g.create.Reads c.levels (tokensOf c.pieces ++ r) (.createTable c) r := by
  rw [tokensOf_createTable] at hs ⊢
  simp only [List.length_cons, List.length_append, List.cons_append, List.append_assoc] at hs ⊢
  have read := hg.createTable hw (by omega) hr
  obtain ⟨orReplace, temporary, ifNotExists, name, cluster, elements, engine, partitionBy,
    primaryKey, orderBy, settings, comment, query⟩ := c
  dsimp only at read ⊢
  unfold Grammar.create
  refine (reads_expect (Terminal.admits_self CREATE) _).next ?_
  refine (reads_flag orReplace fun _ => by cases temporary <;> rfl).next ?_
  cases temporary with
  | true =>
    refine .accepted (Terminal.admits_self TEMPORARY) ?_
    refine (reads_expect (Terminal.admits_self TABLE) _).next ?_
    exact read.last (.pure _ r)
  | false => exact .rejected rfl (.accepted (Terminal.admits_self TABLE) (read.last (.pure _ r)))

/-! ### Views, indexes and databases -/

/-- The tokens of the table that a view may write to. -/
def targetTokens : Option QualifiedName → List Spelled
  | none => []
  | some target => (Terminal.word TO).spelled :: tokensOf target.pieces

/-- The tokens of a list of names that may be missing. -/
theorem begins_nameList (h : Begins ts r) (ns : List String) :
    Begins (.symbol leftParen :: ts) (tokensOf (Piece.nameList ns) ++ r) := by
  cases ns with
  | nil => exact h.weaken leftParen
  | cons n ns => exact .first _ ts _

theorem begins_targetTokens (h : Begins ts r) (target : Option QualifiedName) :
    Begins (.word TO :: ts) (targetTokens target ++ r) := by
  cases target with
  | none => exact h.weaken TO
  | some target => exact .first _ ts _

theorem reads_target (target : Option QualifiedName) (hr : Begins ts r) (ht : .word TO ∉ ts)
    (hd : .symbol dot ∉ ts) :
    (optional TO qualifiedName).Reads 0 (targetTokens target ++ r) target r := by
  cases target with
  | none => exact .optional_none (hr.admits ht)
  | some target =>
    exact .optional_some (Terminal.admits_self TO) (reads_qualifiedName target (hr.admits hd))

theorem tokensOf_createView (c : CreateView) :
    tokensOf c.pieces = (Terminal.keyword CREATE).spelled ::
      (flagTokens c.orReplace [OR, .word REPLACE] ++ (flagTokens c.materialized [MATERIALIZED] ++
        (Terminal.word VIEW).spelled :: (tokensOf (ifNotExistsPieces c.ifNotExists) ++
          (tokensOf c.name.pieces ++ (tokensOf (clusterClause c.cluster) ++
            (targetTokens c.target ++ (tokensOf (Piece.nameList c.columns) ++
              (Terminal.keyword AS).spelled :: tokensOf c.query.pieces))))))) := by
  obtain ⟨orReplace, materialized, ifNotExists, name, cluster, target, columns, query⟩ := c
  have replaced : tokensOf (Piece.flag orReplace [OR, REPLACE]) =
      flagTokens orReplace [OR, .word REPLACE] := tokensOf_flag_eq (by simp)
  have flagged : tokensOf (Piece.flag materialized [MATERIALIZED]) =
      flagTokens materialized [MATERIALIZED] := tokensOf_flag_eq (by simp)
  simp only [CreateView.pieces, tokensOf_append, tokensOf_ahead, replaced, flagged]
  cases target <;> simp [targetTokens]

theorem Reads.createView (hg : g.Reads size) {c : CreateView} (hw : c.query.WellFormed)
    (hs : (tokensOf c.query.pieces).length < size) (hr : Begins statementEnds r) :
    (g.createView c.orReplace c.materialized).Reads c.query.levels
      (tokensOf (ifNotExistsPieces c.ifNotExists) ++ (tokensOf c.name.pieces ++
        (tokensOf (clusterClause c.cluster) ++ (targetTokens c.target ++
          (tokensOf (Piece.nameList c.columns) ++
            (Terminal.keyword AS).spelled :: (tokensOf c.query.pieces ++ r)))))) c r := by
  obtain ⟨orReplace, materialized, ifNotExists, name, cluster, target, columns, query⟩ := c
  dsimp only at hw hs ⊢
  have columnStart : Begins [.symbol leftParen, .keyword AS]
      (tokensOf (Piece.nameList columns) ++ _) := 
    begins_nameList (.first AS [] (tokensOf query.pieces ++ r)) columns
  have targetStart : Begins [.word TO, .symbol leftParen, .keyword AS]
      (targetTokens target ++ _) := begins_targetTokens columnStart target
  have nameStart : Begins [.keyword ON, .word TO, .symbol leftParen, .keyword AS]
      (tokensOf (clusterClause cluster) ++ _) := begins_clusterClause targetStart cluster
  unfold Grammar.createView
  refine (reads_ifNotExists ifNotExists fun _ => admitsAll_second
    (admits_second name (by decide) (nameStart.admits (by decide)))).next ?_
  refine (reads_qualifiedName name (nameStart.admits (by decide))).next ?_
  refine (reads_onCluster cluster fun _ => targetStart.admits (by decide)).next ?_
  refine (reads_target target columnStart (by decide) (by decide)).next ?_
  refine (reads_optionalNameList columns fun _ => by simp).next ?_
  refine (reads_expect (Terminal.admits_self AS) _).next ?_
  exact (hg.query hw hs (hr.mono (by decide))).last (.pure _ r)

theorem Reads.create_view (hg : g.Reads size) {c : CreateView} (hw : c.query.WellFormed)
    (hs : (tokensOf c.pieces).length ≤ size) (hr : Begins statementEnds r) :
    g.create.Reads c.query.levels (tokensOf c.pieces ++ r) (.createView c) r := by
  rw [tokensOf_createView] at hs ⊢
  simp only [List.length_cons, List.length_append, List.cons_append, List.append_assoc] at hs ⊢
  have read := hg.createView hw (by omega) hr
  obtain ⟨orReplace, materialized, ifNotExists, name, cluster, target, columns, query⟩ := c
  dsimp only at read ⊢
  unfold Grammar.create
  refine (reads_expect (Terminal.admits_self CREATE) _).next ?_
  refine (reads_flag orReplace fun _ => by cases materialized <;> rfl).next ?_
  cases materialized with
  | true =>
    refine .rejected rfl (.rejected rfl (.accepted (Terminal.admits_self MATERIALIZED) ?_))
    refine (reads_expect (Terminal.admits_self VIEW) _).next ?_
    exact read.last (.pure _ r)
  | false =>
    refine .rejected (by simp [flagTokens]) (.rejected rfl (.rejected rfl
      (.accepted (Terminal.admits_self VIEW) ?_)))
    exact read.last (.pure _ r)

theorem Reads.indexColumn (hg : g.Reads size) {c : IndexColumn} (hw : c.expr.WellFormed)
    (hs : (tokensOf c.pieces).length < size) (hr : Begins elementEnds r) :
    g.indexColumn.Reads (c.expr.levels false) (tokensOf c.pieces ++ r) c r := by
  obtain ⟨expr, direction⟩ := c
  dsimp only at hw ⊢
  rw [IndexColumn.pieces, tokensOf_append] at hs ⊢
  rw [List.length_append] at hs
  rw [List.append_assoc]
  dsimp only at hs ⊢
  have after : Begins (.keyword ASC :: .keyword DESC :: elementEnds)
      (tokensOf (SortDirection.clause direction) ++ r) := begins_sortDirection hr direction
  unfold Grammar.indexColumn
  refine .last (hg.anyExpr hw (by omega) (.of_begins after (by decide))) ?_
  exact (reads_sortDirection direction hr (by decide) (by decide)).next (.pure _ r)

theorem Reads.create_index (hg : g.Reads size) {c : CreateIndex} (some : c.columns ≠ [])
    (hw : ∀ column ∈ c.columns, column.expr.WellFormed)
    (hs : (tokensOf c.pieces).length ≤ size) (r : List Spelled) :
    g.create.Reads (greatest (fun column => column.expr.levels false) c.columns)
      (tokensOf c.pieces ++ r) (.createIndex c) r := by
  obtain ⟨unique, ifNotExists, name, table, columns⟩ := c
  dsimp only at some hw ⊢
  have flagged : tokensOf (Piece.flag unique [UNIQUE]) = flagTokens unique [UNIQUE] :=
    tokensOf_flag_eq (by simp)
  simp only [CreateIndex.pieces, tokensOf_append, tokensOf_ahead, flagged, tokensOf_keyword,
    tokensOf_word, tokensOf_name, tokensOf_clause, tokensOf_space, tokensOf_parens, tokensOf_nil,
    List.cons_append, List.nil_append, List.append_assoc, List.length_cons,
    List.length_append] at hs ⊢
  have index : (g.createIndex unique).Reads
      (greatest (fun column : IndexColumn => column.expr.levels false) columns)
      (tokensOf (ifNotExistsPieces ifNotExists) ++ nameToken name ::
        (Terminal.keyword ON).spelled :: (tokensOf table.pieces ++
          (Terminal.symbol leftParen).spelled ::
            (tokensOf (Piece.commas (columns.map IndexColumn.pieces)) ++
              (Terminal.symbol rightParen).spelled :: r)))
      ⟨unique, ifNotExists, name, table, columns⟩ r := by
    unfold Grammar.createIndex
    refine (reads_ifNotExists ifNotExists fun _ => admitsAll_second rfl).next ?_
    refine (reads_identifier (name?_nameToken name) _).next ?_
    refine (reads_expect (Terminal.admits_self ON) _).next ?_
    refine (reads_qualifiedName table rfl).next ?_
    refine .last (.between (Terminal.admits_self leftParen) (Terminal.admits_self rightParen)
      (.commaList some (fun column hm r' after => ?_) (by simp))) (.pure _ r)
    have shorter := length_le_commas IndexColumn.pieces hm
    refine hg.indexColumn (hw column hm) (by omega) ?_
    rcases after with rfl | ⟨s, rfl⟩
    · exact .cons (by decide) _
    · exact .cons (by decide) _
  unfold Grammar.create
  refine (reads_expect (Terminal.admits_self CREATE) _).next ?_
  cases unique with
  | true =>
    refine (reads_acceptAll_none rfl).next ?_
    refine .rejected rfl (.rejected rfl (.rejected rfl (.rejected rfl
      (.accepted (Terminal.admits_self UNIQUE) ?_))))
    refine (reads_expect (Terminal.admits_self INDEX) _).next ?_
    exact index.last (.pure _ r)
  | false =>
    refine (reads_acceptAll_none rfl).next ?_
    refine .rejected (by simp [flagTokens]) (.rejected rfl (.rejected rfl
      (.rejected (by simp [flagTokens]) (.rejected rfl
        (.accepted (Terminal.admits_self INDEX) ?_)))))
    exact index.last (.pure _ r)

theorem Reads.create_database (hg : g.Reads size) {c : CreateDatabase}
    (hw : ∀ engine ∈ c.engine, engine.WellFormed) (hs : (tokensOf c.pieces).length ≤ size)
    (hr : Begins statementEnds r) :
    g.create.Reads (levelsIn Engine.levels c.engine) (tokensOf c.pieces ++ r)
      (.createDatabase c) r := by
  obtain ⟨ifNotExists, name, cluster, engine⟩ := c
  dsimp only at hw ⊢
  simp only [CreateDatabase.pieces, tokensOf_append, tokensOf_ahead, tokensOf_keyword,
    tokensOf_word, tokensOf_name, tokensOf_engineClause, tokensOf_nil, List.cons_append,
    List.nil_append, List.append_assoc, List.length_cons, List.length_append] at hs ⊢
  have engineStart : Begins (.word ENGINE :: statementEnds) (engineTokens engine ++ r) :=
    begins_engineTokens hr engine
  have nameStart : Begins (.keyword ON :: .word ENGINE :: statementEnds)
      (tokensOf (clusterClause cluster) ++ _) := begins_clusterClause engineStart cluster
  unfold Grammar.create
  refine (reads_expect (Terminal.admits_self CREATE) _).next ?_
  refine (reads_acceptAll_none rfl).next ?_
  refine .rejected (by simp) (.rejected rfl (.rejected rfl (.rejected (by simp)
    (.rejected rfl (.rejected (by simp) (.accepted (Terminal.admits_self DATABASE) ?_))))))
  refine .last ?_ (.pure _ r)
  unfold Grammar.createDatabase
  refine (reads_ifNotExists ifNotExists fun _ =>
    admitsAll_second (nameStart.admits (by decide))).next ?_
  refine (reads_identifier (name?_nameToken name) _).next ?_
  refine (reads_onCluster cluster fun _ => engineStart.admits (by decide)).next ?_
  exact .last (hg.engine hw (by omega) hr (by decide) (by decide)) (.pure _ r)

end Grammar

end CanonicalSql
