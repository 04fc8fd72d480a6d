import CanonicalSql.Proofs.Reading.Operator

/-! Reading back the parts of expressions: what can start one, lists, windows, calls, and the
operands without an operator of their own. -/

namespace CanonicalSql

open Keyword Word CanonicalSql.Symbol

/-! ### The start of an expression -/

/-- Whether a token of this kind can start an operand that has no operator in front of it. -/
def Token.Kind.startsOperand : Token.Kind → Bool
  | .keyword k => [TRUE, FALSE, NULL, CASE, CAST, EXISTS, INTERVAL, LEFT, RIGHT].contains k
  | .symbol s => [leftParen, leftBracket].contains s
  | .eof => false
  | _ => true

/-- Whether a token of this kind can start an expression. -/
def Token.Kind.startsExpr : Token.Kind → Bool
  | .keyword NOT | .symbol minus | .symbol plus => true
  | k => k.startsOperand

theorem Token.Kind.startsExpr_of_startsOperand {k : Token.Kind} (h : k.startsOperand = true) :
    k.startsExpr = true := by
  unfold startsExpr
  split <;> first | rfl | exact h

theorem startsOperand_nameToken (n : String) : (nameToken n).kind.startsOperand = true := by
  have plain : isPlainName n = true → isPlainName n = true := id
  rcases kind_writtenName plain with h | h <;> rw [nameToken, h] <;> rfl

theorem startsOperand_functionNameToken (n : String) :
    (functionNameToken n).kind.startsOperand = true := by
  rcases kind_functionNameToken n with h | ⟨k, hk, h⟩
  · cases hn : (functionNameToken n).kind <;> first | rfl | simp [hn, Token.Kind.name?] at h
  · rw [h]
    cases k <;> first | rfl | cases hk

/-- No keyword and no symbol but those that start expressions admits the start of one. -/
theorem admits_of_startsExpr {t : Terminal} {k : Token.Kind} (h : k.startsExpr = true)
    (ht : t.spelled.kind.startsExpr = false) : t.admits k = false := by
  cases hk : t.admits k with
  | false => rfl
  | true =>
    cases t <;> cases k <;> simp [Terminal.admits] at hk
    · rw [hk] at ht
      simp [Terminal.spelled, h] at ht
    · simp [Terminal.spelled, Token.Kind.startsExpr, Token.Kind.startsOperand] at ht
    · rw [hk] at ht
      simp [Terminal.spelled, h] at ht

/-- An expression that has no operator of its own starts with the start of an operand. -/
theorem startsOperand_tokensOf {e : Expr} (h : e.precedence = Precedence.atom)
    (s : List Spelled) : (kindAt (tokensOf e.pieces ++ s) 0).startsOperand = true := by
  cases e with
  | literal value =>
    rcases value with _ | _ | ⟨_ | _⟩ | _ <;> simp [Expr.pieces, Literal.piece] <;> rfl
  | column column =>
    rcases column with ⟨_ | ⟨_ | _, _⟩, _⟩ <;>
      simp [Expr.pieces, ColumnRef.pieces, QualifiedName.pieces, startsOperand_nameToken]
  | placeholder p =>
    rw [Expr.pieces]
    cases p <;> rfl
  | binary left op right => cases op <;> cases h
  | unary op operand => cases op <;> cases h
  | cases operand arms otherwise =>
    unfold Expr.pieces
    simp
    rfl
  | cast value type =>
    rw [Expr.pieces]
    simp
    rfl
  | existence query =>
    rw [Expr.pieces]
    simp
    rfl
  | subquery query =>
    rw [Expr.pieces]
    simp
    rfl
  | call call =>
    obtain ⟨function, args, distinct, window⟩ := call
    unfold Expr.pieces Call.pieces
    simp [startsOperand_functionNameToken]
  | tuple items =>
    rw [Expr.pieces]
    simp
    rfl
  | array items =>
    rw [Expr.pieces]
    simp
    rfl
  | interval value unit =>
    rw [Expr.pieces]
    simp
    rfl
  | _ => cases h

theorem startsExpr_parensIf {e : Expr} (needed : Bool)
    (h : ∀ s, (kindAt (tokensOf e.pieces ++ s) 0).startsExpr = true) (s : List Spelled) :
    (kindAt (tokensOf (Piece.parensIf needed e.pieces) ++ s) 0).startsExpr = true := by
  cases needed with
  | true => rfl
  | false => exact h s

/-- The tokens of an expression start with the start of an expression. -/
theorem startsExpr_tokensOf : (e : Expr) → (s : List Spelled) →
    (kindAt (tokensOf e.pieces ++ s) 0).startsExpr = true
  | .binary left op right, s => by
    have head := startsExpr_parensIf (left.precedence < op.precedence) (startsExpr_tokensOf left)
    simp [Expr.pieces, Expr.placed, head]
  | .unary op operand, s => by
    cases op <;> simp [Expr.pieces, UnaryOp.pieces] <;> rfl
  | .between value low high negated, s => by
    have head := startsExpr_parensIf (value.precedence < Precedence.comparison)
      (startsExpr_tokensOf value)
    simp [Expr.pieces, Expr.placed, head]
  | .member value set negated, s => by
    have head := startsExpr_parensIf (value.precedence < Precedence.comparison)
      (startsExpr_tokensOf value)
    simp [Expr.pieces, Expr.placed, head]
  | .like value op pattern negated, s => by
    have head := startsExpr_parensIf (value.precedence < Precedence.comparison)
      (startsExpr_tokensOf value)
    simp [Expr.pieces, Expr.placed, head]
  | .isNull value negated, s => by
    have head := startsExpr_parensIf (value.precedence < Precedence.comparison)
      (startsExpr_tokensOf value)
    simp [Expr.pieces, Expr.placed, head]
  | .subscript base index, s => by
    have head := startsExpr_parensIf (base.precedence < Precedence.subscript)
      (startsExpr_tokensOf base)
    simp [Expr.pieces, Expr.placed, head]
  | .literal _, s | .column _, s | .placeholder _, s | .cases .., s | .cast .., s
  | .existence _, s | .subquery _, s | .call _, s | .tuple _, s | .array _, s
  | .interval .., s => Token.Kind.startsExpr_of_startsOperand (startsOperand_tokensOf rfl s)

theorem startsExpr_placed (e : Expr) (level : Nat) (s : List Spelled) :
    (kindAt (tokensOf (e.placed level e.pieces) ++ s) 0).startsExpr = true :=
  startsExpr_parensIf _ (startsExpr_tokensOf e) s

theorem startsExpr_commas {es : List Expr} (some : es ≠ []) (s : List Spelled) :
    (kindAt (tokensOf (Piece.commas (Expr.each es)) ++ s) 0).startsExpr = true := by
  obtain ⟨e, es, rfl⟩ := List.exists_cons_of_ne_nil some
  rw [Expr.each, tokensOf_commas, List.append_assoc]
  exact startsExpr_tokensOf e _

/-- The start of an expression is not the start of a query. -/
theorem startsQuery_of_startsExpr {k : Token.Kind} (h : k.startsExpr = true) :
    k.startsQuery = false := by
  cases k with
  | keyword k => cases k <;> first | rfl | cases h
  | _ => rfl

/-! ### Lists of expressions -/

theorem length_le_commas {α : Type} (pieces : α → List Piece) {a : α} {as : List α}
    (h : a ∈ as) :
    (tokensOf (pieces a)).length ≤ (tokensOf (Piece.commas (as.map pieces))).length := by
  cases as with
  | nil => cases h
  | cons b as =>
    rw [List.map_cons, tokensOf_commas, List.flatMap_map, List.length_append]
    rcases List.mem_cons.1 h with rfl | h
    · omega
    · have one : (tokensOf (pieces a)).length ≤
          (as.flatMap fun c => (Terminal.symbol .comma).spelled :: tokensOf (pieces c)).length := by
        induction as with
        | nil => cases h
        | cons c as ih =>
          simp only [List.flatMap_cons, List.length_append, List.length_cons]
          rcases List.mem_cons.1 h with rfl | h
          · omega
          · have others := ih (by simp [h]) h
            omega
      omega

namespace Grammar

open Parse

variable {g : Grammar} {size : Nat} {beforeOver : Bool} {r : List Spelled} {ts : List Terminal}

theorem Ends.of_afterItem {r' : List Spelled} (h : AfterItem r r') (hr : Begins ts r)
    (ht : ts.all Terminal.endsExpr = true) (level : Nat) : Ends level false r' := by
  rcases h with rfl | ⟨s, rfl⟩
  · exact .of_begins hr ht
  · exact .of_terminal rfl s

/-- Expressions with commas between them. -/
theorem Reads.exprs (hg : g.Reads size) {es : List Expr} (some : es ≠ [])
    (he : Expr.AllWellFormed es)
    (hs : (tokensOf (Piece.commas (Expr.each es))).length < size) (hr : Begins ts r)
    (ht : ts.all Terminal.endsExpr = true) (hc : .symbol comma ∉ ts) :
    (commaList g.anyExpr).Reads (Expr.allLevels es)
      (tokensOf (Piece.commas (Expr.each es)) ++ r) es r := by
  rw [Expr.allWellFormed_iff] at he
  rw [Expr.each_eq] at hs ⊢
  refine .cast (.commaList some (fun e hm r' after => ?_) (hr.admits hc))
    (Expr.allLevels_eq es).symm
  exact hg.anyExpr (he e hm) (Nat.lt_of_le_of_lt (length_le_commas Expr.pieces hm) hs)
    (Ends.of_afterItem after hr ht 0)

/-- Expressions with commas between them up to a closing symbol. -/
theorem Reads.exprsUpTo (hg : g.Reads size) {c : Symbol} {es : List Expr}
    (he : Expr.AllWellFormed es)
    (hs : (tokensOf (Piece.commas (Expr.each es))).length < size)
    (ht : (Terminal.symbol c).endsExpr = true) (hc : c ≠ comma)
    (start : (Terminal.symbol c).spelled.kind.startsExpr = false) (s : List Spelled) :
    (commaListUpTo c g.anyExpr).Reads (Expr.allLevels es)
      (tokensOf (Piece.commas (Expr.each es)) ++ (Terminal.symbol c).spelled :: s) es
      ((Terminal.symbol c).spelled :: s) := by
  have follows : Begins [.symbol c] ((Terminal.symbol c).spelled :: s) :=
    .cons (by simp) s
  cases es with
  | nil => exact .seen (Terminal.admits_self _) (.pure [] _)
  | cons e es =>
    refine .unseen (admits_of_startsExpr (startsExpr_commas (by simp) _) start) ?_
    exact hg.exprs (by simp) he hs follows (by simpa using ht) (by simpa using hc.symm)

/-! ### Windows -/

/-- The word behind an offset ends the offset. -/
theorem ends_word {w : Word} (h : w ≠ OVER) (level : Nat) (s : List Spelled) :
    Ends level false ((Terminal.word w).spelled :: s) :=
  .of_terminal (by simpa [Terminal.endsExpr] using h) s

theorem Reads.frameBound (hg : g.Reads size) {b : FrameBound} (hb : b.WellFormed)
    (hs : (tokensOf b.pieces).length < size) (r : List Spelled) :
    g.frameBound.Reads b.levels (tokensOf b.pieces ++ r) b r := by
  have offset : ∀ e : Expr, e.WellFormed → (tokensOf (e.placed Precedence.operand e.pieces)).length
      < size → ∀ w : Word, w ≠ OVER → ∀ t,
      (g.expr Precedence.operand).Reads (e.placedLevels Precedence.operand e.inner false)
        (tokensOf (e.placed Precedence.operand e.pieces) ++ (Terminal.word w).spelled :: t) e
        ((Terminal.word w).spelled :: t) :=
    fun e he hs w hw t => hg.placed he hs (ends_word hw _ t)
  have start : ∀ (e : Expr) (k : Keyword) (t : List Spelled),
      (Terminal.keyword k).spelled.kind.startsExpr = false → (Terminal.keyword k).admits
        (kindAt (tokensOf (e.placed Precedence.operand e.pieces) ++ t) 0) = false :=
    fun e k t hk => admits_of_startsExpr (startsExpr_placed e _ t) hk
  unfold Grammar.frameBound
  cases b with
  | unboundedPreceding =>
    simp only [FrameBound.pieces, tokensOf_phrase, tokensOf_keyword, tokensOf_word, tokensOf_nil,
      List.cons_append, List.nil_append]
    refine .accepted (Terminal.admits_self _) ?_
    exact .accepted (Terminal.admits_self _) (.pure _ r)
  | unboundedFollowing =>
    simp only [FrameBound.pieces, tokensOf_phrase, tokensOf_keyword, tokensOf_word, tokensOf_nil,
      List.cons_append, List.nil_append]
    refine .accepted (Terminal.admits_self _) (.rejected (by simp) ?_)
    exact (reads_expect (Terminal.admits_self _) r).next (.pure _ r)
  | currentRow =>
    simp only [FrameBound.pieces, tokensOf_phrase, tokensOf_keyword, tokensOf_word, tokensOf_nil,
      List.cons_append, List.nil_append]
    refine .rejected (by simp) (.accepted (Terminal.admits_self _) ?_)
    exact (reads_expect (Terminal.admits_self _) r).next (.pure _ r)
  | preceding e =>
    rw [FrameBound.WellFormed] at hb
    simp only [FrameBound.pieces, tokensOf_append, tokensOf_behind, tokensOf_word, tokensOf_nil,
      List.length_append, List.append_assoc, List.cons_append, List.nil_append] at hs ⊢
    refine .rejected (start e _ _ rfl) (.rejected (start e _ _ rfl) ?_)
    refine (offset e hb (by omega) _ (by decide) r).last ?_
    exact .accepted (Terminal.admits_self _) (.pure _ r)
  | following e =>
    rw [FrameBound.WellFormed] at hb
    simp only [FrameBound.pieces, tokensOf_append, tokensOf_behind, tokensOf_word, tokensOf_nil,
      List.length_append, List.append_assoc, List.cons_append, List.nil_append] at hs ⊢
    refine .rejected (start e _ _ rfl) (.rejected (start e _ _ rfl) ?_)
    refine (offset e hb (by omega) _ (by decide) r).last ?_
    exact .rejected (by simp) (.accepted (Terminal.admits_self _) (.pure _ r))

theorem admits_between_frameBound (b : FrameBound) (s : List Spelled) :
    (Terminal.keyword BETWEEN).admits (kindAt (tokensOf b.pieces ++ s) 0) = false := by
  cases b with
  | preceding e | following e =>
    rw [FrameBound.pieces, tokensOf_append, List.append_assoc]
    exact admits_of_startsExpr (startsExpr_placed e _ _) rfl
  | _ => simp [FrameBound.pieces]

/-- The words of a frame from behind its unit. -/
def frameTokens (start : FrameBound) : Option FrameBound → List Spelled
  | none => tokensOf start.pieces
  | some finish => (Terminal.keyword BETWEEN).spelled ::
      (tokensOf start.pieces ++ (Terminal.keyword AND).spelled :: tokensOf finish.pieces)

theorem tokensOf_frame (unit : FrameUnit) (start : FrameBound) (finish : Option FrameBound) :
    tokensOf (Frame.pieces ⟨unit, start, finish⟩) =
      tokensOf [unit.piece] ++ frameTokens start finish := by
  unfold Frame.pieces
  cases unit <;> cases finish <;> simp [FrameUnit.piece, frameTokens]

theorem Reads.frame (hg : g.Reads size) {unit : FrameUnit} {start : FrameBound}
    {finish : Option FrameBound} (hf : Frame.WellFormed ⟨unit, start, finish⟩)
    (hs : (frameTokens start finish).length < size) (r : List Spelled) :
    (g.frame unit).Reads (Frame.levels ⟨unit, start, finish⟩) (frameTokens start finish ++ r)
      ⟨unit, start, finish⟩ r := by
  unfold Frame.WellFormed at hf
  unfold Grammar.frame Frame.levels
  cases finish with
  | none =>
    refine .rejected (admits_between_frameBound start r) ?_
    exact .cast ((hg.frameBound hf.1 hs r).last (.pure _ r)) (max_eq_left zero_le).symm
  | some finish =>
    simp only [frameTokens, List.length_cons, List.length_append, List.cons_append,
      List.append_assoc] at hs ⊢
    refine .accepted (Terminal.admits_self _) ?_
    refine .bind (hg.frameBound hf.1 (by omega) _) ?_
    refine (reads_expect (Terminal.admits_self _) _).next ?_
    exact (hg.frameBound hf.2 (by omega) r).last (.pure _ r)

/-! ### Sort orders -/

theorem begins_sortDirection (h : Begins ts r) (d : Option SortDirection) :
    Begins (.keyword ASC :: .keyword DESC :: ts) (tokensOf (SortDirection.clause d) ++ r) := by
  rcases d with _ | _ | _
  · exact (h.weaken DESC).weaken ASC
  · simp only [SortDirection.clause, tokensOf_behind, tokensOf_keyword]
    exact .first _ _ _
  · simp only [SortDirection.clause, tokensOf_behind, tokensOf_keyword]
    exact .cons (List.mem_cons_of_mem _ List.mem_cons_self) _

theorem reads_sortDirection (d : Option SortDirection) (hr : Begins ts r) (ha : .keyword ASC ∉ ts)
    (hd : .keyword DESC ∉ ts) :
    sortDirection.Reads 0 (tokensOf (SortDirection.clause d) ++ r) d r := by
  unfold sortDirection
  rcases d with _ | _ | _
  · exact .rejected (hr.admits ha) (.rejected (hr.admits hd) (.pure none r))
  · simp only [SortDirection.clause, tokensOf_behind, tokensOf_keyword, tokensOf_nil,
      List.cons_append, List.nil_append]
    exact .accepted (Terminal.admits_self _) (.pure _ r)
  · simp only [SortDirection.clause, tokensOf_behind, tokensOf_keyword, tokensOf_nil,
      List.cons_append, List.nil_append]
    exact .rejected (by simp) (.accepted (Terminal.admits_self _) (.pure _ r))

/-- What can follow a term of a sort order. -/
def termEnds : List Terminal :=
  [comma, ROWS, RANGE, LIMIT, SETTINGS, FORMAT, rightParen, semicolon]

theorem Reads.orderItem (hg : g.Reads size) {item : OrderItem} (hi : item.WellFormed)
    (hs : (tokensOf item.pieces).length < size) (hr : Begins termEnds r) :
    g.orderItem.Reads item.levels (tokensOf item.pieces ++ r) item r := by
  obtain ⟨expr, direction, nulls⟩ := item
  rw [OrderItem.WellFormed] at hi
  simp only [OrderItem.pieces, tokensOf_append, List.length_append, List.append_assoc] at hs ⊢
  have afterDirection : Begins (.word NULLS :: termEnds)
      (tokensOf (NullsOrder.clause nulls) ++ r) := by
    rcases nulls with _ | _ | _
    · exact hr.weaken NULLS
    · simp only [NullsOrder.clause, tokensOf_behind, tokensOf_word]
      exact .first _ _ _
    · simp only [NullsOrder.clause, tokensOf_behind, tokensOf_word]
      exact .first _ _ _
  have afterExpr := begins_sortDirection afterDirection direction
  unfold Grammar.orderItem
  refine (hg.anyExpr hi (by omega) (.of_begins afterExpr (by decide))).last ?_
  refine (reads_sortDirection direction afterDirection (by decide) (by decide)).next ?_
  refine .next (a := nulls) (r := r) ?_ (.pure _ r)
  rcases nulls with _ | _ | _
  · exact .optional_none (hr.admits (by decide))
  · simp only [NullsOrder.clause, tokensOf_behind, tokensOf_word, tokensOf_nil, List.cons_append,
      List.nil_append]
    exact .optional_some (Terminal.admits_self _) (.accepted (Terminal.admits_self _) (.pure _ r))
  · simp only [NullsOrder.clause, tokensOf_behind, tokensOf_word, tokensOf_nil, List.cons_append,
      List.nil_append]
    refine .optional_some (Terminal.admits_self _) (.rejected (by simp) ?_)
    exact .accepted (Terminal.admits_self _) (.pure _ r)

/-- The terms of a sort order behind its first word. -/
theorem Reads.orderItems (hg : g.Reads size) {items : List OrderItem} (some : items ≠ [])
    (hi : OrderItem.AllWellFormed items)
    (hs : (tokensOf (Piece.commas (OrderItem.each items))).length < size) (hr : Begins ts r)
    (hsub : ts ⊆ termEnds) (hc : .symbol comma ∉ ts) :
    g.orderItems.Reads (OrderItem.allLevels items)
      ((Terminal.keyword BY).spelled ::
        (tokensOf (Piece.commas (OrderItem.each items)) ++ r)) items r := by
  rw [OrderItem.allWellFormed_iff] at hi
  rw [OrderItem.each_eq] at hs ⊢
  unfold Grammar.orderItems
  refine (reads_expect (Terminal.admits_self _) _).next ?_
  refine .cast (.commaList some (fun item hm r' after => ?_) (hr.admits hc))
    (OrderItem.allLevels_eq items).symm
  refine hg.orderItem (hi item hm)
    (Nat.lt_of_le_of_lt (length_le_commas OrderItem.pieces hm) hs) ?_
  rcases after with rfl | ⟨s, rfl⟩
  · exact hr.mono hsub
  · exact .cons (by decide) s

/-! ### Windows and calls -/

/-- The tokens of parts with blanks between them. -/
theorem tokensOf_intercalate_space (parts : List (List Piece)) :
    tokensOf (List.intercalate [.space] parts) = parts.flatMap tokensOf := by
  induction parts with
  | nil => rfl
  | cons part parts ih =>
    cases parts with
    | nil => simp [List.intercalate]
    | cons next parts =>
      have step : List.intercalate [Piece.space] (part :: next :: parts) =
          part ++ .space :: List.intercalate [.space] (next :: parts) := by
        simp [List.intercalate]
      rw [step, tokensOf_append, tokensOf_space, ih]
      rfl

/-- The tokens of a clause with a list, if the list has items. -/
def listTokens (head : List Terminal) (items : List (List Piece)) : List Spelled :=
  if items.isEmpty then [] else head.map Terminal.spelled ++ tokensOf (Piece.commas items)

/-- The tokens of the frame that a window may have. -/
def windowFrameTokens : Option Frame → List Spelled
  | none => []
  | some f => tokensOf f.pieces

theorem tokensOf_window (partitionBy : List Expr) (orderBy : List OrderItem)
    (frame : Option Frame) : tokensOf (Window.pieces ⟨partitionBy, orderBy, frame⟩) =
      listTokens [PARTITION, BY] (Expr.each partitionBy) ++
        (listTokens [ORDER, BY] (OrderItem.each orderBy) ++ windowFrameTokens frame) := by
  unfold Window.pieces
  rw [tokensOf_intercalate_space]
  cases partitionBy <;> cases orderBy <;> cases frame <;>
    simp [listTokens, Expr.each, OrderItem.each, windowFrameTokens]

/-- A list that may be missing adds its first word to what can be ahead. -/
theorem begins_listTokens {t : Terminal} {head : List Terminal} (h : Begins ts r)
    (items : List (List Piece)) : Begins (t :: ts) (listTokens (t :: head) items ++ r) := by
  unfold listTokens
  split
  · exact h.weaken t
  · exact .first t ts _

/-- Expressions behind a word and `BY`, if there are any. -/
theorem Reads.exprsBy (hg : g.Reads size) {t : Terminal} {es : List Expr}
    (he : Expr.AllWellFormed es)
    (hs : (listTokens [t, .keyword BY] (Expr.each es)).length ≤ size) (hr : Begins ts r)
    (ht : t ∉ ts) (hts : ts.all Terminal.endsExpr = true) (hc : .symbol comma ∉ ts) :
    (optionalList t (expect BY >>= fun _ => commaList g.anyExpr)).Reads (Expr.allLevels es)
      (listTokens [t, .keyword BY] (Expr.each es) ++ r) es r := by
  cases es with
  | nil => exact .optionalList_none (hr.admits ht)
  | cons e es =>
    have shorter : (tokensOf (Piece.commas (Expr.each (e :: es)))).length < size := by
      simp [listTokens, Expr.each] at hs ⊢
      omega
    refine .optionalList_some (Terminal.admits_self t) ?_
    refine (reads_expect (Terminal.admits_self BY) _).next ?_
    exact hg.exprs (List.cons_ne_nil e es) he shorter hr hts hc

/-- A sort order behind its words, if there is one. -/
theorem Reads.orderBy (hg : g.Reads size) {items : List OrderItem}
    (hi : OrderItem.AllWellFormed items)
    (hs : (listTokens [ORDER, BY] (OrderItem.each items)).length ≤ size) (hr : Begins ts r)
    (ht : .keyword ORDER ∉ ts) (hsub : ts ⊆ termEnds) (hc : .symbol comma ∉ ts) :
    (optionalList ORDER g.orderItems).Reads (OrderItem.allLevels items)
      (listTokens [ORDER, BY] (OrderItem.each items) ++ r) items r := by
  cases items with
  | nil => exact .optionalList_none (hr.admits ht)
  | cons item items =>
    have shorter : (tokensOf (Piece.commas (OrderItem.each (item :: items)))).length < size := by
      simp [listTokens, OrderItem.each] at hs ⊢
      omega
    refine .optionalList_some (Terminal.admits_self ORDER) ?_
    exact hg.orderItems (List.cons_ne_nil item items) hi shorter hr hsub hc

theorem Reads.windowParts (hg : g.Reads size) {w : Window} (hw : w.WellFormed)
    (hs : (tokensOf w.pieces).length < size) (hr : Begins [rightParen] r) :
    g.windowParts.Reads w.levels (tokensOf w.pieces ++ r) w r := by
  obtain ⟨partitionBy, orderBy, frame⟩ := w
  unfold Window.WellFormed at hw
  obtain ⟨hp, ho, hf⟩ := hw
  rw [tokensOf_window] at hs ⊢
  simp only [List.length_append, List.append_assoc] at hs ⊢
  have frameStart : Begins [ROWS, RANGE, rightParen] (windowFrameTokens frame ++ r) := by
    cases frame with
    | none => exact hr.mono (by simp)
    | some f =>
      obtain ⟨unit, start, finish⟩ := f
      rw [windowFrameTokens, tokensOf_frame, List.append_assoc]
      cases unit
      · exact .cons (t := ROWS) (by simp) _
      · exact .cons (t := RANGE) (by simp) _
  have orderStart : Begins [ORDER, ROWS, RANGE, rightParen]
      (listTokens [ORDER, BY] (OrderItem.each orderBy) ++ (windowFrameTokens frame ++ r)) :=
    begins_listTokens frameStart _
  unfold Grammar.windowParts Window.levels
  refine .bind (hg.exprsBy (t := PARTITION) hp (by omega) orderStart (by decide) (by decide)
    (by decide)) ?_
  refine .bind (hg.orderBy ho (by omega) frameStart (by decide) (by decide) (by decide)) ?_
  cases frame with
  | none =>
    refine .next (a := none) (r := r) ?_ (.pure _ r)
    exact .rejected (hr.admits (by simp)) (.rejected (hr.admits (by simp)) (.pure none r))
  | some f =>
    obtain ⟨unit, start, finish⟩ := f
    rw [windowFrameTokens, tokensOf_frame] at hs ⊢
    rw [List.length_append] at hs
    have read := hg.frame hf (by omega) r
    cases unit with
    | rows =>
      refine .next (a := some .rows) (.accepted (Terminal.admits_self ROWS) (.pure _ _)) ?_
      exact read.last (.pure _ r)
    | range =>
      refine .next (a := some .range) (.rejected (by simp [FrameUnit.piece])
        (.accepted (Terminal.admits_self RANGE) (.pure _ _))) ?_
      exact read.last (.pure _ r)

theorem Reads.window (hg : g.Reads size) {w : Window} (hw : w.WellFormed)
    (hs : (tokensOf w.pieces).length < size) (r : List Spelled) :
    g.window.Reads w.levels (tokensOf (Piece.parens w.pieces) ++ r) w r := by
  rw [tokensOf_parens, List.cons_append, List.append_assoc]
  exact .between (Terminal.admits_self leftParen) (Terminal.admits_self rightParen)
    (hg.windowParts hw hs (.cons (t := rightParen) (by simp) r))

/-- The word in front of arguments that are distinct. -/
def distinctTokens (distinct : Bool) : List Spelled :=
  if distinct then [(Terminal.keyword DISTINCT).spelled] else []

theorem Reads.callArgs (hg : g.Reads size) {args : CallArgs} {distinct : Bool}
    (ha : args.WellFormed distinct) (hs : (tokensOf args.pieces).length < size)
    (r : List Spelled) :
    g.callArgs.Reads args.levels
      (distinctTokens distinct ++ (tokensOf args.pieces ++ (Terminal.symbol rightParen).spelled :: r))
      (args, distinct) ((Terminal.symbol rightParen).spelled :: r) := by
  unfold Grammar.callArgs
  cases args with
  | star =>
    rw [CallArgs.WellFormed] at ha
    subst ha
    rw [CallArgs.pieces, tokensOf_symbol, CallArgs.levels]
    exact .accepted (Terminal.admits_self star) (.pure _ _)
  | list es =>
    rw [CallArgs.WellFormed] at ha
    rw [CallArgs.pieces] at hs ⊢
    rw [CallArgs.levels]
    cases es with
    | nil =>
      have plain : distinct = false := by simpa using ha.1
      subst plain
      exact .rejected rfl (.seen rfl (.pure _ _))
    | cons e es =>
      have items := hg.exprs (by simp) ha.2 hs
        (Begins.cons (List.mem_singleton_self (Terminal.symbol rightParen)) r) (by decide)
        (by decide)
      have start := startsExpr_commas (List.cons_ne_nil e es)
        ((Terminal.symbol rightParen).spelled :: r)
      cases distinct with
      | true =>
        refine .rejected (by simp [distinctTokens]) (.unseen (by simp [distinctTokens]) ?_)
        refine (reads_accept (Terminal.admits_self DISTINCT) _).next ?_
        exact items.last (.pure _ _)
      | false =>
        refine .rejected (admits_of_startsExpr start rfl)
          (.unseen (admits_of_startsExpr start rfl) ?_)
        refine (reads_accept_none (admits_of_startsExpr start rfl)).next ?_
        exact items.last (.pure _ _)

/-- The tokens of the window that a call may have. -/
def overTokens : Option Window → List Spelled
  | none => []
  | some w => (Terminal.word OVER).spelled :: tokensOf (Piece.parens w.pieces)

/-- The tokens of a call from behind its name. -/
def callTokens (args : CallArgs) (distinct : Bool) (window : Option Window) : List Spelled :=
  (Terminal.symbol leftParen).spelled ::
    (distinctTokens distinct ++
      (tokensOf args.pieces ++ (Terminal.symbol rightParen).spelled :: overTokens window))

theorem tokensOf_call (function : String) (args : CallArgs) (distinct : Bool)
    (window : Option Window) : tokensOf (Call.pieces ⟨function, args, distinct, window⟩) =
      functionNameToken function :: callTokens args distinct window := by
  unfold Call.pieces
  cases distinct <;> cases window <;> simp [callTokens, distinctTokens, overTokens]

/-- The levels of the window that a call may have. -/
noncomputable def windowLevels (beforeOver : Bool) : Option Window → ℕ∞
  | none => if beforeOver then ⊤ else 0
  | some window => window.levels

theorem levels_call (function : String) (args : CallArgs) (distinct : Bool)
    (window : Option Window) : Call.levels ⟨function, args, distinct, window⟩ beforeOver =
      max args.levels (windowLevels beforeOver window) := by
  unfold Call.levels
  cases window <;> rfl

/-- The window of a call.  Where there is none and the word `OVER` follows, the word opens a window
that is not there. -/
theorem Reads.overClause (hg : g.Reads size) {window : Option Window}
    (hw : ∀ w ∈ window, w.WellFormed) (hs : (overTokens window).length < size)
    {level : Nat} (hr : Ends level beforeOver r) :
    (Parse.optional OVER g.window).Reads (windowLevels beforeOver window)
      (overTokens window ++ r) window r := by
  cases window with
  | none =>
    cases beforeOver with
    | false => exact .optional_none hr.opensWindow
    | true =>
      have word := hr.opensWindow
      cases r with
      | nil => cases word
      | cons t r =>
        have fails := reads_expect_none (u := ()) (r := []) (hr.noWindow rfl)
        exact .accepted word (Reads.top_bind (a := ⟨[], [], none⟩) (r := []) fails.top_bind)
  | some w =>
    simp only [overTokens, tokensOf_parens, List.length_cons, List.length_append] at hs
    exact .optional_some (Terminal.admits_self OVER) (hg.window (hw w rfl) (by omega) r)

end Grammar

end CanonicalSql
