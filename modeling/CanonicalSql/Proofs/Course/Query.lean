import CanonicalSql.Proofs.Course.Operator

/-! What the rules for queries give.  Each set operation puts its node on top of the body before it, so
the words of set operations that follow a body bind no more tightly than the body does. -/

namespace CanonicalSql

open Keyword Word CanonicalSql.Symbol

section

@[simp] theorem literals_selectItemEach (items : List SelectItem) :
    (SelectItem.each items).flatMap Piece.literals =
      items.flatMap fun item => Piece.literals item.pieces := by
  induction items with
  | nil => rfl
  | cons item items ih => simp [SelectItem.each, ih]

@[simp] theorem literals_commonTableEach (tables : List CommonTable) :
    (CommonTable.each tables).flatMap Piece.literals =
      tables.flatMap fun table => Piece.literals table.pieces := by
  induction tables with
  | nil => rfl
  | cons table tables ih => simp [CommonTable.each, ih]

@[simp] theorem literals_settingEach (settings : List Setting) :
    (Setting.each settings).flatMap Piece.literals =
      settings.flatMap fun setting => Piece.literals setting.pieces := by
  induction settings with
  | nil => rfl
  | cons setting settings ih => simp [Setting.each, ih]

@[simp] theorem literals_joinPieces (joins : List Join) :
    Piece.literals (Join.allPieces joins) = joins.flatMap fun join => Piece.literals join.pieces := by
  induction joins with
  | nil => rfl
  | cons join joins ih => simp [Join.allPieces, ih]

@[simp] theorem literals_joinKind (kind : JoinKind) : Piece.literals kind.pieces = [] := by
  cases kind <;> rfl

@[simp] theorem literals_setOp (op : SetOp) (ps : List Piece) :
    Piece.literals (op.piece :: ps) = Piece.literals ps := by
  cases op <;> rfl

@[simp] theorem literals_setQuantifier (quantifier : SetQuantifier) :
    Piece.literals quantifier.pieces = [] := by
  cases quantifier <;> rfl

@[simp] theorem literals_qualifiedName (name : QualifiedName) :
    Piece.literals name.pieces = [] := by
  rcases name with ⟨_ | _, _⟩ <;> simp [QualifiedName.pieces]

end

namespace Opens

variable {ts us : List Token} {bare opens : Bool} {t : Token}

theorem append (h : Opens ts bare opens) (us : List Token) : Opens (ts ++ us) bare opens := by
  obtain ⟨t, rest, rfl, starts, group⟩ := h
  refine ⟨t, rest ++ us, rfl, starts, fun hp => ?_⟩
  obtain ⟨u, vs, rfl, inner⟩ := group hp
  exact ⟨u, vs ++ us, rfl, inner⟩

/-- A keyword that a query starts with. -/
theorem keyword {k : Keyword} (ht : t.kind = .keyword k) : Opens (t :: ts) true opens :=
  ⟨t, ts, rfl, fun _ => rfl, fun hp => by rw [ht] at hp; cases hp⟩

/-- A parenthesis with a query behind it. -/
theorem group {inner : Bool} (ht : t.kind = .symbol leftParen) (h : Opens ts bare inner) :
    Opens (t :: ts) opens bare := by
  obtain ⟨u, rest, rfl, starts, -⟩ := h
  exact ⟨t, u :: rest, rfl, fun hp => by simp [ht, Token.Kind.startsQuery] at hp,
    fun _ => ⟨u, rest, rfl, starts⟩⟩

end Opens

/-- The kind of a token that a keyword admits. -/
theorem Terminal.kind_of_keyword {k : Keyword} {kind : Token.Kind}
    (h : (Terminal.keyword k).admits kind = true) : kind = .keyword k := by
  cases kind <;> simp_all [Terminal.admits]

/-- The kind of a token that a sign admits. -/
theorem Terminal.kind_of_symbol {s : Symbol} {kind : Token.Kind}
    (h : (Terminal.symbol s).admits kind = true) : kind = .symbol s := by
  cases kind <;> simp_all [Terminal.admits]

namespace Grammar

open Parse

variable {plain : Prop} {g : Grammar}

/-! ### Columns of the result -/

theorem sound_tableWildcard : tableWildcard?.Sound plain := by
  refine .peek fun c => ?_
  have named : ∀ {i : ℕ} {name : String}, (c.peekAt i).kind.name? = some name →
      (c.peekAt i).kind.isLiteral = false ∧ (c.peekAt i).kind ≠ .eof :=
    fun hn => Token.Kind.of_name? hn
  cases first : (c.peekAt 0).kind.name? with
  | none =>
    change c.current.kind.name? = none at first
    rw [first]
    exact .pure (holds_silent trivial rfl rfl)
  | some database =>
    have start := named first
    change c.current.kind.name? = some database at first
    rw [first]
    refine .seesAllAt ?_
    cases short : c.facesAt 1 [dot, star] with
    | true =>
      refine .silently (fun i hi => ?_) (.pure (holds_silent trivial rfl rfl))
      have others := Cursor.facesAt_get short
      obtain rfl | rfl | rfl : i = 0 ∨ i = 1 ∨ i = 2 := by omega
      · exact start
      · exact Terminal.silent (others 0 (by simp))
      · exact Terminal.silent (others 1 (by simp))
    | false =>
      refine .peekAt ?_
      cases second : (c.peekAt 2).kind.name? with
      | none => exact .pure (holds_silent trivial rfl rfl)
      | some table =>
        refine .seesAt (.seesAllAt ?_)
        split
        · next found =>
          rw [Bool.and_eq_true] at found
          refine .silently (fun i hi => ?_) (.pure (holds_silent trivial rfl rfl))
          have others := Cursor.facesAt_get found.2
          obtain rfl | rfl | rfl | rfl | rfl : i = 0 ∨ i = 1 ∨ i = 2 ∨ i = 3 ∨ i = 4 := by omega
          · exact start
          · exact Terminal.silent found.1
          · exact named second
          · exact Terminal.silent (others 0 (by simp))
          · exact Terminal.silent (others 1 (by simp))
        · exact .pure (holds_silent trivial rfl rfl)

theorem Sound.selectItem (hg : g.Sound plain) : g.selectItem.Sound plain := by
  refine .accept (.pure (holds_silent trivial rfl rfl)) ?_
  refine .bind sound_tableWildcard fun _ _ table h1 => ?_
  cases table with
  | some table =>
    refine .pure ?_
    simp only [Nat.max_zero, List.append_nil]
    exact h1.into id (by simp [Construct.depth, SelectItem.depth])
      (by simp [Construct.literals, SelectItem.pieces])
  | none =>
    refine .bind hg.anyExpr fun _ _ expr h2 => .last (sound_aliasName.mono fun _ _ name h3 => ?_)
    refine (h1.and (h2.and h3)).into (fun w => w.2.1) ?_ ?_
    · simp [Construct.depth, SelectItem.depth]
    · simp [Construct.literals, SelectItem.pieces]

/-! ### Relations -/

theorem Sound.derivedQuery (hg : g.Sound plain) : g.derivedQuery.Sound plain := by
  refine .peek fun c => .sees ?_
  split
  · refine Yields.here (.bind hg.someQuery fun _ _ q h => .expect (.pure ?_))
    simpa using h
  · exact .fail _

theorem Sound.relation (hg : g.Sound plain) : g.relation.Sound plain := by
  refine .accept ?_ ?_
  · refine .bind hg.derivedQuery fun _ _ q h1 => .last (sound_aliasName.mono fun _ _ name h2 => ?_)
    refine (h1.and h2).into (fun w => w.1) ?_ ?_
    · simp [Construct.depth, Relation.depth]
    · simp [Construct.literals, Relation.pieces]
  · refine .peek fun c => ?_
    split
    · exact .fail _
    refine .seesAt ?_
    split
    · refine Yields.here (.bind sound_identifier fun _ _ function h1 => ?_)
      refine .bind ((hg.anyExpr.commaListUpTo _).between _ _) fun _ _ args h2 => ?_
      refine .last (sound_aliasName.mono fun _ _ name h3 => ?_)
      refine (h1.and (h2.and h3)).into (fun w => Expr.allWellFormed_iff.2 w.2.1) ?_ ?_
      · simp [Construct.depth, Relation.depth]
      · simp [Construct.literals, Relation.pieces]
    · refine Yields.here (.bind sound_qualifiedName fun _ _ table h1 => ?_)
      refine .last (sound_aliasName.mono fun _ _ name h2 => ?_)
      refine (h1.and h2).into (fun _ => trivial) ?_ ?_
      · simp [Construct.depth, Relation.depth]
      · simp [Construct.literals, Relation.pieces]

/-- The words of a join never make a comma of it. -/
theorem yields_joinKind :
    joinKind.Yields plain fun _ ls kind => ls = [] ∧ kind ≠ some .comma := by
  have side : joinSide.Yields plain fun _ ls kind => ls = [] ∧ kind ≠ some .comma := by
    refine .accept (.discard_accept (.pure (by simp))) (.accept (.discard_accept (.pure (by simp)))
      (.accept (.discard_accept (.pure (by simp))) (.pure (by simp))))
  exact .seen (.pure (by simp)) (.accept (.pure (by simp)) (.accept (.pure (by simp)) side))

/-- A join that words announce has a condition if joins of its kind have one. -/
theorem Sound.joinConstraint (hg : g.Sound plain) {kind : JoinKind} (hk : kind ≠ .comma) :
    (g.joinConstraint kind).Yields plain fun n ls constraint =>
      Holds plain (triangle n) ls constraint ∧
        kind.takesConstraint = constraint.isSome := by
  unfold Grammar.joinConstraint
  split
  · next cross =>
    subst cross
    exact .pure ⟨holds_silent trivial rfl rfl, rfl⟩
  · next other =>
    have takes : kind.takesConstraint = true := by
      cases kind <;> simp_all [JoinKind.takesConstraint]
    refine .accept ?_ (.accept ?_ (.fail _))
    · refine .last (hg.anyExpr.mono fun _ _ condition h => ⟨?_, takes⟩)
      exact h.into id (by simp [Construct.depth, JoinConstraint.depth, depthIn])
        (by simp [Construct.literals, JoinConstraint.pieces])
    · refine .last (yields_nameList.mono fun _ _ columns h => ⟨?_, takes⟩)
      exact h.2.into (fun _ => h.1) (by simp [Construct.depth, JoinConstraint.depth, depthIn])
        (by simp [Construct.literals, JoinConstraint.pieces])

theorem Sound.join (hg : g.Sound plain) : g.join.Sound plain := by
  refine .accept (.last (hg.relation.mono fun _ _ relation h => ?_)) ?_
  · refine h.into (fun w => ⟨w, rfl, trivial⟩) ?_ ?_
    · simp [Construct.depth, Join.depth, depthIn]
    · simp [Construct.literals, Join.pieces]
  refine .bind yields_joinKind fun _ _ kind hk => ?_
  obtain ⟨rfl, noComma⟩ := hk
  cases kind with
  | none => exact .pure (holds_silent trivial rfl rfl)
  | some kind =>
    refine .expect (.bind hg.relation fun _ _ relation h1 => ?_)
    refine .last ((hg.joinConstraint (by simpa using noComma)).mono fun _ _ constraint h2 => ?_)
    refine ((h1.and h2.1).into (fun w => ?_) ?_ ?_).loosen (triangle_mono (le_max_right _ _))
    · cases constraint <;> exact ⟨w.1, h2.2, w.2⟩
    · cases constraint <;> simp [Construct.depth, Join.depth, depthIn]
    · cases constraint <;> simp [Construct.literals, Join.pieces]

theorem Sound.joins (hg : g.Sound plain) (count : ℕ) : (g.joins count).Sound plain := by
  induction count with
  | zero => exact .pure holds_nil
  | succ count ih =>
    refine .bind hg.join fun _ _ join h1 => ?_
    cases join with
    | none =>
      refine .pure ?_
      simp only [Nat.max_zero, List.append_nil]
      exact h1.into (fun _ => by simp [Construct.WellFormed]) (Nat.zero_le _) rfl
    | some join =>
      refine .last (ih.mono fun _ _ others h2 => ?_)
      exact (h1.and h2).into (fun w => List.forall_mem_cons.2 w) le_rfl rfl

theorem Sound.fromClause (hg : g.Sound plain) : g.fromClause.Sound plain := by
  refine .bind hg.relation fun _ _ relation h1 => .remaining fun count => ?_
  refine .last ((hg.joins count).mono fun _ _ joins h2 => ?_)
  refine (h1.and h2).into (fun w => ⟨w.1, Join.allWellFormed_iff.2 w.2⟩) ?_ ?_
  · simp [Construct.depth, FromClause.depth]
  · simp [Construct.literals, FromClause.pieces]

/-! ### Bodies -/

theorem Sound.selectClauses (hg : g.Sound plain) (distinct : Bool) :
    (do
      let items ← commaList g.selectItem
      let source ← Parse.optional FROM g.fromClause
      let selection ← Parse.optional WHERE g.anyExpr
      let groupBy ← optionalList GROUP do
        expect BY
        commaList g.anyExpr
      let having ← Parse.optional HAVING g.anyExpr
      return ⟨distinct, items, source, selection, groupBy, having⟩ :
        Parse SelectBlock).Sound plain := by
  refine .bind hg.selectItem.commaList fun _ _ items h1 => ?_
  refine .bind (Parse.Sound.optional _ hg.fromClause) fun _ _ source h2 => ?_
  refine .bind (Parse.Sound.optional _ hg.anyExpr) fun _ _ selection h3 => ?_
  refine .bind (Parse.Sound.optionalList _ (.expect hg.anyExpr.commas)) fun _ _ groupBy h4 => ?_
  refine .last ((Parse.Sound.optional _ hg.anyExpr).mono fun _ _ having h5 => ?_)
  refine (h1.2.and (h2.and (h3.and (h4.and h5)))).into (fun w => ?_) ?_ ?_
  · obtain ⟨w1, w2, w3, w4, w5⟩ := w
    exact SelectBlock.wellFormed_iff.2 ⟨h1.1, w1, Construct.forall_mem w2,
      Construct.forall_mem w3, w4, Construct.forall_mem w5⟩
  · exact (SelectBlock.depth_eq _).le
  · cases source <;> cases selection <;> cases having <;>
      simp [Construct.literals, SelectBlock.pieces]

theorem Sound.selectBlock (hg : g.Sound plain) :
    g.selectBlock.Gives plain fun n ts block =>
      Holds plain (triangle n) (literalsOf ts) block ∧ Opens ts true false := by
  have clauses : (do
      let distinct ← accept DISTINCT
      unless distinct do discard (accept ALL)
      let items ← commaList g.selectItem
      let source ← Parse.optional FROM g.fromClause
      let selection ← Parse.optional WHERE g.anyExpr
      let groupBy ← optionalList GROUP do
        expect BY
        commaList g.anyExpr
      let having ← Parse.optional HAVING g.anyExpr
      return ⟨distinct, items, source, selection, groupBy, having⟩ :
        Parse SelectBlock).Sound plain :=
    .accept (hg.selectClauses true) (.discard_accept (hg.selectClauses false))
  refine Gives.expect fun token ht => Gives.mono clauses fun n ts block h => ?_
  rw [literalsOf_terminal ht]
  exact ⟨h, .keyword (Terminal.kind_of_keyword ht)⟩

theorem Sound.setOperand (hg : g.Sound plain) :
    g.setOperand.Gives plain fun n ts body =>
      Holds plain (triangle n) (literalsOf ts) body ∧ Opens ts body.startsBare body.opensBare ∧
        body.precedence = 3 := by
  refine .seen ?_ (.seen ?_ (.fail _))
  · refine Gives.bind hg.selectBlock fun n ts block h => .pure ?_
    simp only [Nat.max_zero, List.append_nil]
    exact ⟨h.1.into id le_rfl rfl, h.2, rfl⟩
  · refine Gives.bind (Q := fun n ts q => Holds plain (triangle n) (literalsOf ts) q ∧
      Opens ts false q.startsBare) ?_ fun n ts q h => .pure ?_
    · refine Gives.expect fun opening ho => Gives.bind hg.query fun n ts q h => ?_
      refine Gives.expect fun closing hc => .pure ?_
      rw [literalsOf_terminal ho, literalsOf_append, literalsOf_terminal hc]
      simp only [Nat.max_zero, literalsOf_nil, List.append_nil]
      exact ⟨h.1, .group (Terminal.kind_of_symbol ho) (h.2.append _)⟩
    · simp only [Nat.max_zero, List.append_nil]
      exact ⟨h.1.into id le_rfl (by simp [Construct.literals, QueryBody.pieces]), h.2, rfl⟩

theorem sound_setQuantifier : setQuantifier.Sound plain :=
  .accept (.pure (holds_silent trivial rfl rfl))
    (.accept (.pure (holds_silent trivial rfl rfl)) (.pure (holds_silent trivial rfl rfl)))

theorem SetOp.precedence_le (op : SetOp) : op.precedence + 1 ≤ 3 := by cases op <;> decide

/-- What is known of a body from behind `left`, at the cursor `c` behind the body: no set operation of
`level` or more follows. -/
structure BodyFrom (plain : Prop) (level : ℕ) (left : QueryBody) (n : ℕ) (ls : List Token.Kind)
    (body : QueryBody) (c : Cursor) : Prop where
  holds : Holds plain (max left.depth (triangle n) + n) (Piece.literals left.pieces ++ ls) body
  startsBare : body.startsBare = left.startsBare
  opensBare : body.opensBare = left.opensBare
  level_le : level ≤ body.precedence
  stops : ∀ op, setOp? c.current.kind = some op → op.precedence < level

/-- A token that announces a set operation is no constant and no mark of the end. -/
theorem silent_of_setOp? {k : Token.Kind} {op : SetOp} (h : setOp? k = some op) :
    k.isLiteral = false ∧ k ≠ .eof := by
  cases k <;> simp_all [setOp?, Token.Kind.isLiteral]

/-- A chain of set operations from `left` on. -/
theorem Sound.setOperations (hg : g.Sound plain) {level : ℕ} (count : ℕ) {left : QueryBody}
    {c : Cursor} (enough : c.remaining ≤ count) (hl : left.WellFormed)
    (hlevel : level ≤ left.precedence)
    (follows : ∀ op, setOp? c.current.kind = some op → op.precedence ≤ left.precedence) :
    (g.setOperations level count left).GivesAt plain c fun n ts body c' =>
      BodyFrom plain level left n (literalsOf ts) body c' := by
  have stop : ∀ {left : QueryBody} {c : Cursor}, left.WellFormed → level ≤ left.precedence →
      (∀ op, setOp? c.current.kind = some op → op.precedence < level) →
      BodyFrom plain level left 0 (literalsOf []) left c := fun hl hlevel stops =>
    ⟨⟨hl, le_max_left _ _, fun _ => List.append_nil _⟩, rfl, rfl, hlevel, stops⟩
  induction count generalizing left c with
  | zero =>
    intro ready
    have ended := ready.atEnd_iff.2 (Nat.le_zero.1 enough)
    exact GivesAt.pure (stop hl hlevel fun op ho => by simp [ended, setOp?] at ho) ready
  | succ count ih =>
    refine .peek ?_
    cases ho : setOp? c.current.kind with
    | none => exact .pure (stop hl hlevel fun op h => by simp [ho] at h)
    | some op =>
      dsimp only
      split
      · next below =>
        refine .pure (stop hl hlevel fun op' h => ?_)
        obtain rfl : op = op' := by simpa [ho] using h
        exact below
      next within =>
      obtain ⟨silent, noEnd⟩ := silent_of_setOp? ho
      intro ready
      have moved := Cursor.remaining_add (ready.advance noEnd)
      rw [List.length_singleton] at moved
      refine GivesAt.descend (.discard_advance noEnd ?_) ready
      simp only [literalsOf_silent silent]
      refine (sound_setQuantifier c.advance).bind fun _ ks quantifier c1 h1 hc1 => ?_
      refine (hg.body _ (SetOp.precedence_le op) c1).bind fun n us right c2 h2 hc2 => ?_
      obtain ⟨holds, -, binds, next⟩ := h2
      have compound : (QueryBody.compound op quantifier left right).WellFormed :=
        ⟨hl, holds.wellFormed, follows op ho, binds⟩
      have remain1 := Cursor.remaining_add hc1
      have remain2 := Cursor.remaining_add hc2
      refine (ih (c := c2) (by omega) compound (Nat.not_lt.1 within) fun op' h => ?_).mono ?_
      · exact Nat.lt_succ_iff.1 (next op' h)
      · intro m vs body c' chain
        refine ⟨⟨chain.holds.wellFormed, chain.holds.shallow.trans ?_, fun hp => ?_⟩,
          chain.startsBare, chain.opensBare, chain.level_le, chain.stops⟩
        · have deep : right.depth ≤ triangle n + n := holds.shallow
          rw [triangle, triangle_max, triangle_max, QueryBody.depth]
          omega
        · rw [← chain.holds.literals hp]
          simp only [literalsOf_append, h1.literals hp, holds.literals hp, Construct.literals,
            QueryBody.pieces]
          simp

theorem Sound.bodyRule (hg : g.Sound plain) {level : ℕ} (hlevel : level ≤ 3) (c : Cursor) :
    (g.bodyRule level).GivesAt plain c fun n ts body c' =>
      Holds plain (triangle n + n) (literalsOf ts) body ∧
        Opens ts body.startsBare body.opensBare ∧ level ≤ body.precedence ∧
        ∀ op, setOp? c'.current.kind = some op → op.precedence < level := by
  rw [bodyRule_eq_setOperations]
  refine (hg.setOperand c).bind fun n ts left c1 h _ => .remaining ?_
  obtain ⟨holds, opens, tight⟩ := h
  refine (hg.setOperations c1.remaining le_rfl holds.wellFormed (hlevel.trans tight.ge)
    fun op _ => ?_).mono fun m us body c' chain => ?_
  · have below := SetOp.precedence_le op
    omega
  · refine ⟨⟨chain.holds.wellFormed, chain.holds.shallow.trans ?_, fun hp => ?_⟩, ?_,
      chain.level_le, chain.stops⟩
    · have deep : left.depth ≤ triangle n := holds.shallow
      rw [triangle_max]
      omega
    · rw [literalsOf_append, holds.literals hp]
      exact chain.holds.literals hp
    · rw [chain.startsBare, chain.opensBare]
      exact opens.append us

/-! ### Queries -/

theorem Sound.commonTable (hg : g.Sound plain) : g.commonTable.Sound plain := by
  refine .bind sound_identifier fun _ _ name h1 => .bind sound_optionalNameList fun _ _ columns h2 => ?_
  refine .expect (.last ((hg.someQuery.between _ _).mono fun _ _ q h3 => ?_))
  refine (h1.and (h2.and h3)).into (fun w => w.2.2) ?_ ?_
  · simp [Construct.depth, CommonTable.depth]
  · simp [Construct.literals, CommonTable.pieces]

theorem Sound.withClause (hg : g.Sound plain) : g.withClause.Sound plain := by
  refine .bind (sound_accept _) fun _ _ recursive h1 => ?_
  refine .last (hg.commonTable.commaList.mono fun _ _ tables h2 => ?_)
  refine (h1.and h2.2).into (fun w => ⟨h2.1, CommonTable.allWellFormed_iff.2 w.2⟩) ?_ ?_
  · simp [Construct.depth, WithClause.depth]
  · simp [Construct.literals, WithClause.pieces]

theorem Sound.setting (hg : g.Sound plain) : g.setting.Sound plain := by
  refine .bind sound_identifier fun _ _ name h1 => .expect ?_
  refine .last (hg.anyExpr.mono fun _ _ value h2 => ?_)
  refine (h1.and h2).into (fun w => w.2) ?_ ?_
  · simp [Construct.depth, Setting.depth]
  · simp [Construct.literals, Setting.pieces]

/-- The limit of a query.  With a comma its two expressions change places. -/
theorem Sound.limitClause (hg : g.Sound plain) : (Parse.optional LIMIT g.limit).Sound plain := by
  intro c ready
  refine GivesAt.accept (fun found => ?_) (fun _ => .pure (holds_silent trivial rfl rfl)) ready
  simp only [literalsOf_terminal found]
  have here := ready.advance (Terminal.silent found).2
  unfold Grammar.limit
  simp only [if_true, bind_assoc]
  refine (hg.anyExpr c.advance).run.bind fun n ts first c1 h hc => ?_
  obtain ⟨h1, p, q, hp, hq, run⟩ := h
  refine .accept (fun comma => ?_) fun _ => ?_
  · have limited : CommaLimit c.upcoming := by
      obtain ⟨size, reads⟩ := hg.reading run
      exact ⟨[], c.current, size, first, p, q, by rw [here, hp]; rfl,
        Terminal.kind_of_keyword found, reads, by rw [hq]; exact Terminal.kind_of_symbol comma⟩
    simp only [if_true, bind_assoc, pure_bind, literalsOf_append, literalsOf_terminal comma]
    refine Yields.here (R := fun m ks limit => Holds plain (triangle (max n m))
      (literalsOf ts ++ ks) limit) (.last (hg.anyExpr.mono fun m ks second h2 => ?_))
    refine ⟨⟨h2.wellFormed, h1.wellFormed⟩, ?_, fun hp => absurd limited (ready.plainly hp)⟩
    have both := (h1.and h2).shallow
    simp only [Construct.depth, depthIn, Limit.depth] at both ⊢
    omega
  · simp only [Bool.false_eq_true, if_false, bind_assoc, pure_bind, literalsOf_append]
    refine Yields.here (R := fun m ks limit => Holds plain (triangle (max n m))
      (literalsOf ts ++ ks) limit)
      (.last ((Parse.Sound.optional _ hg.anyExpr).mono fun m ks offset h2 => ?_))
    refine (h1.and h2).into (fun w => ?_) ?_ ?_
    · cases offset <;> exact w
    · cases offset <;> simp [Construct.depth, depthIn, Limit.depth]
    · cases offset <;> simp [Construct.literals, Limit.pieces]

/-- The clauses of a query from behind its body. -/
theorem Sound.clausesBehind (hg : g.Sound plain) (tables : Option WithClause) (body : QueryBody) :
    (do
      let orderBy ← optionalList ORDER g.orderItems
      let limit ← Parse.optional LIMIT g.limit
      let settings ← optionalList SETTINGS (commaList g.setting)
      let format ← Parse.optional FORMAT (label .formatName)
      return ⟨tables, body, orderBy, limit, settings, format⟩ : Parse Query).Yields plain
        fun n ls q => ∃ orderBy limit settings format,
          q = ⟨tables, body, orderBy, limit, settings, format⟩ ∧
            Holds plain (triangle n) ls (orderBy, limit, settings, format) := by
  refine .bind (Parse.Sound.optionalList _ hg.orderItems) fun _ _ orderBy h1 => ?_
  refine .bind hg.limitClause fun _ _ limit h2 => ?_
  refine .bind (Parse.Sound.optionalList _ hg.setting.commas) fun _ _ settings h3 => ?_
  refine .last ((Parse.Sound.optional _ (sound_label _)).mono fun _ _ format h4 => ?_)
  exact ⟨orderBy, limit, settings, format, rfl, h1.and (h2.and (h3.and h4))⟩

/-- What stands in front of a body tells how the query starts. -/
theorem Sound.tables (hg : g.Sound plain) :
    (Parse.optional WITH g.withClause).Gives plain fun n ts tables =>
      Holds plain (triangle n) (literalsOf ts) tables ∧
        (tables = none ∧ ts = [] ∨ tables.isSome = true ∧ Opens ts true false) := by
  refine Gives.accept (fun token ht => ?_) (.pure ⟨holds_silent trivial rfl rfl, .inl ⟨rfl, rfl⟩⟩)
  refine Gives.bind hg.withClause fun _ ts tables h => .pure ?_
  rw [literalsOf_terminal ht]
  simp only [Nat.max_zero, List.append_nil]
  exact ⟨h.into id le_rfl rfl, .inr ⟨rfl, .keyword (Terminal.kind_of_keyword ht)⟩⟩

theorem Sound.queryRule (hg : g.Sound plain) :
    g.queryRule.Gives plain fun n ts q =>
      Holds plain (triangle n) (literalsOf ts) q ∧ Opens ts q.startsBare q.opensBare := by
  refine .descend (Gives.bind hg.tables fun n1 ts tables h1 => fun c => ?_)
  refine (hg.bodyRule (Nat.zero_le _) c).bind fun n2 us body c' h2 _ => ?_
  refine (hg.clausesBehind tables body c').mono fun n3 vs q _ h3 => ?_
  obtain ⟨orderBy, limit, settings, format, rfl, behind⟩ := h3
  obtain ⟨front, start⟩ := h1
  obtain ⟨middle, opens, -⟩ := h2
  obtain ⟨w1, w2, w3, -⟩ := behind.wellFormed
  refine ⟨⟨?_, ?_, fun hp => ?_⟩, ?_⟩
  · exact Query.wellFormed_iff.2 ⟨Construct.forall_mem front.wellFormed, middle.wellFormed, w1,
      Construct.forall_mem w2, w3⟩
  · have deep1 : depthIn WithClause.depth tables ≤ triangle n1 := front.shallow
    have deep2 : body.depth ≤ triangle n2 + n2 := middle.shallow
    have deep3 : max (deepest OrderItem.depth orderBy) (max (depthIn Limit.depth limit)
        (max (deepest Setting.depth settings) (depthIn (fun _ => 0) format))) ≤ triangle n3 :=
      behind.shallow
    change Query.depth _ ≤ _
    rw [Query.depth_eq, triangle, triangle_max, triangle_max]
    dsimp only
    omega
  · rw [literalsOf_append, literalsOf_append, front.literals hp, middle.literals hp,
      behind.literals hp]
    cases tables <;> cases limit <;> cases format <;>
      simp [Construct.literals, Query.pieces]
  · obtain ⟨rfl, rfl⟩ | ⟨some, starts⟩ := start
    · rw [List.nil_append]
      exact opens.append vs
    · have bare : ∀ orderBy limit settings format,
          Query.startsBare ⟨tables, body, orderBy, limit, settings, format⟩ = true ∧
            Query.opensBare ⟨tables, body, orderBy, limit, settings, format⟩ = false := by
        cases tables <;> simp_all [Query.startsBare, Query.opensBare]
      rw [(bare _ _ _ _).1, (bare _ _ _ _).2]
      exact starts.append _

end Grammar

end CanonicalSql
