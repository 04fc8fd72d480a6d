import CanonicalSql.Parser.DataChange
import CanonicalSql.Proofs.Alike.Expr

/-! The rules for queries and for changes of data over token vectors that go together. -/

namespace CanonicalSql

open Keyword Word CanonicalSql.Symbol

namespace Parse.Idle

/-! ### Loops that stop -/

theorem join (g : Grammar) : g.join.Idle none := by
  have side : Grammar.joinSide.Idle none :=
    .bind (.accept _) (.bind (.accept _) (.bind (.accept _) (.pure none)))
  have word : Grammar.joinKind.Idle none :=
    .bind (.sees _) (.bind (.accept _) (.bind (.accept _) side))
  exact .bind (.accept _) (.bind word (.pure none))

theorem joins (g : Grammar) (count : ℕ) : (g.joins count).Idle [] := by
  cases count with
  | zero => exact .pure []
  | succ count => exact .bind (.join g) (.pure [])

theorem setOperations (g : Grammar) (level count : ℕ) (left : QueryBody) :
    (g.setOperations level count left).Idle left := by
  cases count with
  | zero => exact .pure left
  | succ count => exact .peek (.pure left) (.pure left) (.pure left)

theorem rows (row : Parse (List Expr)) (count : ℕ) : (Grammar.rows row count).Idle [] := by
  cases count with
  | zero => exact .pure []
  | succ count => exact .bind (.accept _) (.bind (.sees _) (.pure []))

end Parse.Idle

namespace Likeness

open Parse Grammar

variable {L : Likeness} {g g' : Grammar}

/-- Where the first vector ends no query starts on either side. -/
theorem Beside.startsQuery {c d : Cursor} (h : L.Beside c d) :
    d.current.kind.startsQuery = c.current.kind.startsQuery :=
  h.told Token.Kind.startsQuery (by rintro k (rfl | rfl) <;> rfl)

/-! ### Columns and relations -/

/-- The looks behind a first name without a dot do not matter: they may be past the end. -/
private theorem no_wildcard_of_undotted (name : String) (kind : Token.Kind) (p : Parser)
    (undotted : Terminal.admits dot (p.cursor.peekAt 1).kind = false) :
    (match kind.name? with
      | none => return none
      | some second => do
        if (← seesAt 1 dot) && (← seesAllAt 3 [dot, star]) then
          skip 5
          return some ⟨some name, second⟩
        else return none : Parse (Option QualifiedName)) p = .ok none p := by
  cases kind.name? with
  | none => rfl
  | some second =>
    change EStateM.bind (seesAt 1 dot) _ p = _
    have look : seesAt 1 dot p = .ok false p := congrArg (EStateM.Result.ok · p) undotted
    rw [EStateM.bind, look]
    change EStateM.bind (seesAllAt 3 [dot, star]) _ p = _
    rw [EStateM.bind, seesAllAt_eq]
    rfl

theorem alike_tableWildcard? : L.Alike tableWildcard? tableWildcard? := by
  intro c d
  refine .of_beside fun beside => .peek ⟨rfl, rfl⟩ ?_
  cases first : c.current.kind.name? with
  | none => exact .pure rfl
  | some name =>
    have more := mt beside.atEnd_iff.2 (Token.Kind.of_name? first).2
    have inside : 1 ≤ c.remaining := by omega
    refine .seesAllAt (by decide) inside fun more => ?_
    split
    · next found => exact .skip (more found) fun _ _ _ => .pure rfl
    obtain ⟨same, behind⟩ := beside.admits_ahead inside dot
    refine .look (a := (c.peekAt 2).kind) (b := (d.peekAt 2).kind) (fun p hp => by rw [peekAt, hp])
      (fun p hp => by rw [peekAt, hp]) ?_
    cases dotted : Terminal.admits dot (c.peekAt 1).kind with
    | false =>
      exact .of_eq (fun p hp => no_wildcard_of_undotted _ _ p (hp ▸ dotted))
        (fun p hp => no_wildcard_of_undotted _ _ p (hp ▸ same.trans dotted)) rfl
    | true =>
      obtain ⟨c', d', beside', hc, hd, moved⟩ := beside.ahead (behind dotted)
      have names : (d.peekAt 2).kind.name? = (c.peekAt 2).kind.name? := by
        rw [← hc, ← hd]
        exact beside'.name?
      rw [names]
      cases second : (c.peekAt 2).kind.name? with
      | none => exact .pure rfl
      | some name' =>
        have inside' := mt beside'.atEnd_iff.2 (hc ▸ (Token.Kind.of_name? second).2)
        refine .look (a := true) (b := true)
          (fun p hp => congrArg (EStateM.Result.ok · p) (hp ▸ dotted))
          (fun p hp => congrArg (EStateM.Result.ok · p) (hp ▸ same.trans dotted)) ?_
        refine .seesAllAt (by decide) (by omega) fun more => ?_
        simp only [Bool.true_and]
        split
        · next found => exact .skip (more found) fun _ _ _ => .pure rfl
        · exact .pure rfl

namespace Grammars

theorem selectItem (h : L.Grammars g g') : L.Alike g.selectItem g'.selectItem := by
  refine .accept (.pure _) (.bind alike_tableWildcard? fun table => ?_)
  cases table with
  | none => exact .bind h.anyExpr fun _ => .bind alike_aliasName fun _ => .pure _
  | some table => exact .pure _

theorem derivedQuery (h : L.Grammars g g') : L.Alike g.derivedQuery g'.derivedQuery :=
  .peek ⟨rfl, rfl⟩ fun _ => .sees fun _ => .ite (.bind h.query fun _ => .expect (.pure _)) (.fail _)

theorem relation (h : L.Grammars g g') : L.Alike g.relation g'.relation := by
  refine .accept (.bind h.derivedQuery fun _ => .bind alike_aliasName fun _ => .pure _) fun c d => ?_
  refine .of_beside fun beside => .peek ⟨rfl, rfl⟩ ?_
  cases named : c.current.kind.name? with
  | none => exact .fail _
  | some name =>
    have more := mt beside.atEnd_iff.2 (Token.Kind.of_name? named).2
    have same := (beside.admits_ahead (n := 1) (by omega) leftParen).1
    refine .look (a := Terminal.admits leftParen (c.peekAt 1).kind)
      (b := Terminal.admits leftParen (c.peekAt 1).kind)
      (fun p hp => congrArg (EStateM.Result.ok · p) (by rw [hp]))
      (fun p hp => congrArg (EStateM.Result.ok · p) (by rw [hp, same])) ?_
    exact Alike.ite
      (.bind alike_identifier fun _ => .bind (.between _ _ (.commaListUpTo _ (h.refuses 0) h.anyExpr)) fun _ =>
        .bind alike_aliasName fun _ => .pure _)
      (.bind alike_qualifiedName fun _ => .bind alike_aliasName fun _ => .pure _) c d

theorem joinSide : L.Alike joinSide joinSide :=
  .accept (.discard_accept (.pure _)) (.accept (.discard_accept (.pure _))
    (.accept (.discard_accept (.pure _)) (.pure _)))

theorem joinKind : L.Alike joinKind joinKind :=
  .seen (.pure _) (.accept (.pure _) (.accept (.pure _) joinSide))

theorem joinConstraint (h : L.Grammars g g') (kind : JoinKind) :
    L.Alike (g.joinConstraint kind) (g'.joinConstraint kind) := by
  unfold Grammar.joinConstraint
  split
  · exact .pure _
  · exact .accept (.bind h.anyExpr fun _ => .pure _)
      (.accept (.bind alike_nameList fun _ => .pure _) (.fail _))

/-- A join passes over its comma or its word. -/
theorem join (h : L.Grammars g g') (c d : Cursor) :
    L.AlikeAt (fun a b c' => a = b ∧ (a ≠ none → c'.remaining < c.remaining)) g.join g'.join c d := by
  refine .accept (fun _ c1 d1 first => (h.relation c1 d1).bind ?_) fun _ => (joinKind c d).bind ?_
  · rintro relation _ c2 d2 rfl less
    exact .pure ⟨rfl, fun _ => by omega⟩
  · rintro kind _ c1 d1 rfl less1
    cases kind with
    | none => exact .pure ⟨rfl, fun no => absurd rfl no⟩
    | some kind =>
      refine .expect fun c2 d2 word => (h.relation c2 d2).bind ?_
      rintro relation _ c3 d3 rfl less3
      refine (h.joinConstraint kind c3 d3).bind ?_
      rintro constraint _ c4 d4 rfl less4
      exact .pure ⟨rfl, fun _ => by omega⟩

theorem joins (h : L.Grammars g g') : L.Alike (remaining >>= g.joins) (remaining >>= g'.joins) := by
  refine .loop (σ := Unit) (e := fun _ => []) (x := fun n _ => g.joins n)
    (y := fun n _ => g'.joins n) (fun n _ => .joins g n) (fun n _ => .joins g' n) ?_ ()
  intro n m _ c d others
  refine (h.join c d).bind ?_
  rintro join _ c1 d1 ⟨rfl, progress⟩ -
  cases join with
  | none => exact .pure rfl
  | some join =>
    refine (others () c1 d1 (progress (by simp))).bind ?_
    rintro joins _ c2 d2 rfl -
    exact .pure rfl

theorem fromClause (h : L.Grammars g g') : L.Alike g.fromClause g'.fromClause :=
  .bind h.relation fun _ => .behind h.joins fun _ => .pure _

/-! ### Queries -/

theorem selectBlock (h : L.Grammars g g') : L.Alike g.selectBlock g'.selectBlock := by
  refine .expect (.bind (.accepted _) fun distinct => ?_)
  have clauses : ∀ distinct, L.Alike
      (do
        let items ← commaList g.selectItem
        let source ← optional FROM g.fromClause
        let selection ← optional WHERE g.anyExpr
        let groupBy ← optionalList GROUP do
          expect BY
          commaList g.anyExpr
        let having ← optional HAVING g.anyExpr
        return (⟨distinct, items, source, selection, groupBy, having⟩ : SelectBlock))
      (do
        let items ← commaList g'.selectItem
        let source ← optional FROM g'.fromClause
        let selection ← optional WHERE g'.anyExpr
        let groupBy ← optionalList GROUP do
          expect BY
          commaList g'.anyExpr
        let having ← optional HAVING g'.anyExpr
        return ⟨distinct, items, source, selection, groupBy, having⟩) := fun _ =>
    .bind (.commaList h.selectItem) fun _ => .bind (.optional _ h.fromClause) fun _ =>
      .bind (.optional _ h.anyExpr) fun _ =>
        .bind (.optionalList _ (.expect (.commaList h.anyExpr))) fun _ =>
          .bind (.optional _ h.anyExpr) fun _ => .pure _
  exact .ite (clauses distinct) (.discard_accept (clauses distinct))

theorem setOperand (h : L.Grammars g g') : L.Alike g.setOperand g'.setOperand :=
  .seen (.bind h.selectBlock fun _ => .pure _)
    (.seen (.bind (.between _ _ h.query) fun _ => .pure _) (.fail _))

theorem setQuantifier : L.Alike setQuantifier setQuantifier :=
  .accept (.pure _) (.accept (.pure _) (.pure _))

theorem setOperations (h : L.Grammars g g') (level : Nat) (left : QueryBody) :
    L.Alike (remaining >>= fun n => g.setOperations level n left)
      (remaining >>= fun n => g'.setOperations level n left) := by
  refine .loop (e := fun left => left) (fun n left => .setOperations g level n left)
    (fun n left => .setOperations g' level n left) ?_ left
  intro n m left c d others
  refine .peek ⟨rfl, rfl⟩ ?_
  cases announced : setOp? c.current.kind with
  | none => exact .pure rfl
  | some op =>
    dsimp only
    split
    · exact .pure rfl
    · have inside : c.current.kind ≠ .eof := fun he => by simp [he, setOp?] at announced
      refine .descend (.discard_advance inside fun c1 d1 word => (setQuantifier c1 d1).bind ?_)
      rintro quantifier _ c2 d2 rfl less2
      refine (h.body _ c2 d2).bind ?_
      rintro right _ c3 d3 rfl less3
      exact others _ c3 d3 (by omega)

theorem bodyRule (h : L.Grammars g g') (level : Nat) :
    L.Alike (g.bodyRule level) (g'.bodyRule level) := by
  rw [bodyRule_eq_setOperations, bodyRule_eq_setOperations]
  exact .bind h.setOperand fun left => h.setOperations level left

theorem commonTable (h : L.Grammars g g') : L.Alike g.commonTable g'.commonTable :=
  .bind alike_identifier fun _ => .bind alike_optionalNameList fun _ =>
    .expect (.bind (.between _ _ h.query) fun _ => .pure _)

theorem withClause (h : L.Grammars g g') : L.Alike g.withClause g'.withClause :=
  .bind (.accepted _) fun _ => .bind (.commaList h.commonTable) fun _ => .pure _

theorem setting (h : L.Grammars g g') : L.Alike g.setting g'.setting :=
  .bind alike_identifier fun _ => .expect (.bind h.anyExpr fun _ => .pure _)

theorem limit (h : L.Grammars g g') : L.Alike g.limit g'.limit :=
  .bind h.anyExpr fun _ => .accept (.bind h.anyExpr fun _ => .pure _)
    (.bind (.optional _ h.anyExpr) fun _ => .pure _)

theorem queryRule (h : L.Grammars g g') : L.Alike g.queryRule g'.queryRule :=
  .descend (.bind (.optional _ h.withClause) fun _ => .bind (h.bodyRule 0) fun _ =>
    .bind (.optionalList _ h.orderItems) fun _ => .bind (.optional _ h.limit) fun _ =>
      .bind (.optionalList _ (.commaList h.setting)) fun _ =>
        .bind (.optional _ (alike_label _)) fun _ => .pure _)

/-! ### Changes of data -/

theorem row (h : L.Grammars g g') : L.Alike g.row g'.row := .between _ _ (.commaList h.anyExpr)

theorem rows (h : L.Grammars g g') :
    L.Alike (remaining >>= rows g.row) (remaining >>= rows g'.row) := by
  refine .loop (σ := Unit) (e := fun _ => []) (x := fun n _ => Grammar.rows g.row n)
    (y := fun n _ => Grammar.rows g'.row n) (fun n _ => .rows g.row n) (fun n _ => .rows g'.row n) ?_ ()
  intro n m _ c d others
  -- A row passes over its parenthesis.
  have first : ∀ c d : Cursor, L.AlikeAt
      (fun a b c' => a = b ∧ c'.remaining < c.remaining) g.row g'.row c d := by
    intro c d
    refine .expect fun c1 d1 opening => (Alike.commaList h.anyExpr c1 d1).bind ?_
    rintro items _ c2 d2 rfl less2
    exact .expect fun c3 d3 closing => .pure ⟨rfl, by omega⟩
  have round : ∀ c1 d1 : Cursor, c1.remaining ≤ c.remaining → L.AlikeAt (Same _)
      (do return (← g.row) :: (← Grammar.rows g.row n))
      (do return (← g'.row) :: (← Grammar.rows g'.row m)) c1 d1 := by
    intro c1 d1 less1
    refine (first c1 d1).bind ?_
    rintro items _ c2 d2 ⟨rfl, less2⟩ -
    refine (others () c2 d2 (by omega)).bind ?_
    rintro rows _ c3 d3 rfl -
    exact .pure rfl
  refine .accept (fun _ c1 d1 comma => .sees (round c1 d1 (by omega))) fun _ => .sees ?_
  cases Terminal.admits leftParen c.current.kind with
  | true => exact round c d le_rfl
  | false => exact .pure rfl

theorem insertSource (h : L.Grammars g g') : L.Alike g.insertSource g'.insertSource :=
  .accept (.bind h.row fun _ => .behind h.rows fun _ => .pure _)
    (.peek ⟨rfl, rfl⟩ fun _ => .sees fun _ => .ite (.bind h.query fun _ => .pure _) (.fail _))

/-- Whether a query starts behind the parenthesis ahead matters only where there is a parenthesis. -/
theorem insert (h : L.Grammars g g') : L.Alike g.insert g'.insert := by
  refine .expect (.expect (.discard_accept (.bind alike_qualifiedName fun table c d => ?_)))
  refine .of_beside fun beside => .look (a := (c.peekAt 1).kind) (b := (d.peekAt 1).kind)
    (fun p hp => by rw [peekAt, hp]) (fun p hp => by rw [peekAt, hp]) ?_
  have columns : L.AlikeAt (Same _)
      (if (c.peekAt 1).kind.startsQuery = true then Pure.pure [] else optionalNameList)
      (if (d.peekAt 1).kind.startsQuery = true then Pure.pure [] else optionalNameList) c d := by
    by_cases ended : c.remaining = 0
    · have idle : ∀ b : Bool, (if b = true then Pure.pure [] else optionalNameList : Parse _).Idle [] := by
        rintro (_ | _)
        · exact .bind (.sees _) (.pure [])
        · exact .pure []
      exact .idle ended (idle _) (idle _)
    · obtain ⟨c', d', beside', hc, hd, -⟩ := beside.ahead (n := 1) (by omega)
      rw [← hc, ← hd, beside'.startsQuery]
      exact Alike.ite (.pure _) alike_optionalNameList c d
  have whole := columns.bind (R := Same Insert)
    (f := fun columns => do return ⟨table, columns, ← g.insertSource⟩)
    (g := fun columns => do return ⟨table, columns, ← g'.insertSource⟩) (by
      rintro columns _ c1 d1 rfl -
      exact Alike.bind h.insertSource (fun _ => .pure _) c1 d1)
  have branches : ∀ (b : Bool) (f : List String → Parse Insert),
      ((if b = true then Pure.pure [] else optionalNameList) >>= f) =
        if b = true then Pure.pure [] >>= f else optionalNameList >>= f := by
    rintro (_ | _) f <;> rfl
  rw [branches, branches] at whole
  exact whole

theorem assignment (h : L.Grammars g g') : L.Alike g.assignment g'.assignment :=
  .bind alike_identifier fun _ => .expect (.bind h.anyExpr fun _ => .pure _)

theorem update (h : L.Grammars g g') : L.Alike g.update g'.update :=
  .expect (.bind alike_qualifiedName fun _ => .bind alike_aliasName fun _ =>
    .expect (.bind (.commaList h.assignment) fun _ =>
      .bind (.optional _ h.anyExpr) fun _ => .pure _))

theorem delete (h : L.Grammars g g') : L.Alike g.delete g'.delete :=
  .expect (.expect (.bind alike_qualifiedName fun _ => .bind alike_onCluster fun _ =>
    .bind (.optional _ h.anyExpr) fun _ => .pure _))

end Grammars

end Likeness

end CanonicalSql
