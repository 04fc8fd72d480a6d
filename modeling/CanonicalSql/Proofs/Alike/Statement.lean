import CanonicalSql.Parser.Statement
import CanonicalSql.Proofs.Alike.Query

/-! The rules for definitions and for statements of every kind over token vectors that go together, and with
them the grammars of constructs inside one another. -/

namespace CanonicalSql

open Keyword Word CanonicalSql.Symbol

theorem Parse.Idle.columnOptions (g : Grammar) (count : ℕ) : (g.columnOptions count).Idle [] := by
  have none : g.columnOption.Idle none :=
    .bind (.accept _) (.bind (.accept _) (.bind (.accept _) (.bind (.accept _) (.bind (.accept _)
      (.bind (.accept _) (.bind (.accept _) (.bind (.accept _) (.bind (.accept _)
        (.bind (.sees _) (.pure none))))))))))
  cases count with
  | zero => exact .pure []
  | succ count => exact .bind none (.pure [])

namespace Likeness

open Parse Grammar

variable {L : Likeness} {g g' : Grammar}

namespace Grammars

/-! ### Tables -/

/-- A reference passes over its first word. -/
theorem foreignReference (c d : Cursor) :
    L.AlikeAt (fun a b c' => a = b ∧ c'.remaining < c.remaining) foreignReference foreignReference
      c d := by
  refine .expect fun c1 d1 word => ?_
  have rest : L.Alike
      (do
        let table ← qualifiedName
        return (⟨table, ← optionalNameList⟩ : ForeignReference))
      (do
        let table ← qualifiedName
        return ⟨table, ← optionalNameList⟩) :=
    .bind alike_qualifiedName fun _ => .bind alike_optionalNameList fun _ => .pure _
  exact (rest c1 d1).onward.mono fun _ _ _ h => ⟨h.1, by omega⟩

/-- An option of a column passes over its first word. -/
theorem columnOption (h : L.Grammars g g') (c d : Cursor) :
    L.AlikeAt (fun a b c' => a = b ∧ (a ≠ none → c'.remaining < c.remaining))
      g.columnOption g'.columnOption c d := by
  have behind : ∀ {c1 d1 : Cursor} {x y : Parse (Option ColumnOption)},
      c.remaining = c1.remaining + 1 → L.Alike x y →
      L.AlikeAt (fun a b c' => a = b ∧ (a ≠ none → c'.remaining < c.remaining)) x y c1 d1 :=
    fun {c1 d1} _ _ word alike => (alike c1 d1).onward.mono fun _ _ _ h => ⟨h.1, fun _ => by omega⟩
  refine .accept (fun _ c1 d1 word => behind word (.pure _)) fun _ => ?_
  refine .accept (fun _ c1 d1 word => behind word (.expect (.pure _))) fun _ => ?_
  refine .accept (fun _ c1 d1 word => behind word (.bind h.anyExpr fun _ => .pure _)) fun _ => ?_
  refine .accept (fun _ c1 d1 word => behind word (.bind h.anyExpr fun _ => .pure _)) fun _ => ?_
  refine .accept (fun _ c1 d1 word => behind word (.bind h.anyExpr fun _ => .pure _)) fun _ => ?_
  refine .accept (fun _ c1 d1 word => behind word (.expect (.pure _))) fun _ => ?_
  refine .accept (fun _ c1 d1 word => behind word (.pure _)) fun _ => ?_
  refine .accept (fun _ c1 d1 word => behind word (.bind h.anyExpr fun _ => .pure _)) fun _ => ?_
  refine .accept (fun _ c1 d1 word =>
    behind word (.bind (alike_stringLiteral _) fun _ => .pure _)) fun _ => .sees ?_
  split
  · refine (foreignReference c d).bind ?_
    rintro reference _ c1 d1 ⟨rfl, less⟩ -
    exact .pure ⟨rfl, fun _ => less⟩
  · exact .pure ⟨rfl, fun no => absurd rfl no⟩

theorem columnOptions (h : L.Grammars g g') :
    L.Alike (remaining >>= g.columnOptions) (remaining >>= g'.columnOptions) := by
  refine .loop (σ := Unit) (e := fun _ => []) (x := fun n _ => g.columnOptions n)
    (y := fun n _ => g'.columnOptions n) (fun n _ => .columnOptions g n) (fun n _ => .columnOptions g' n) ?_ ()
  intro n m _ c d others
  refine (h.columnOption c d).bind ?_
  rintro option _ c1 d1 ⟨rfl, progress⟩ -
  cases option with
  | none => exact .pure rfl
  | some option =>
    refine (others () c1 d1 (progress (by simp))).bind ?_
    rintro options _ c2 d2 rfl -
    exact .pure rfl

theorem columnDefinition (h : L.Grammars g g') (beforePlace : Bool) :
    L.Alike (g.columnDefinition beforePlace) (g'.columnDefinition beforePlace) := by
  refine .bind alike_identifier fun name => .peek ⟨rfl, rfl⟩ fun k => ?_
  have options : ∀ type, L.Alike
      (do return (⟨name, type, ← g.columnOptions (← remaining)⟩ : ColumnDefinition))
      (do return ⟨name, type, ← g'.columnOptions (← remaining)⟩) := fun _ =>
    .behind h.columnOptions fun _ => .pure _
  exact .ite (.bind (.map some h.dataType) options) (.bind (.pure none) options)

theorem constraintKind (h : L.Grammars g g') : L.Alike g.constraintKind g'.constraintKind := by
  refine .accept (.expect (.bind alike_nameList fun _ => .pure _))
    (.accept (.bind alike_nameList fun _ => .pure _)
      (.accept (.bind h.anyExpr fun _ => .pure _) (.accept (.expect ?_) (.fail _))))
  refine .bind alike_nameList fun columns c d => (foreignReference c d).bind ?_
  rintro reference _ c1 d1 ⟨rfl, -⟩ -
  exact .pure rfl

theorem tableConstraint (h : L.Grammars g g') : L.Alike g.tableConstraint g'.tableConstraint :=
  .bind (.optional _ alike_identifier) fun _ => .bind h.constraintKind fun _ => .pure _

theorem tableElement (h : L.Grammars g g') : L.Alike g.tableElement g'.tableElement :=
  .peek ⟨rfl, rfl⟩ fun _ => .ite (.bind h.tableConstraint fun _ => .pure _)
    (.bind (h.columnDefinition false) fun _ => .pure _)

theorem engine (h : L.Grammars g g') : L.Alike g.engine g'.engine :=
  .discard_accept (.bind (alike_label _) fun _ =>
    .bind (.optional _ (.bind (.commaListUpTo _ (h.refuses 0) h.anyExpr) fun _ => .expect (.pure _)))
      fun _ => .pure _)

theorem tableElements (h : L.Grammars g g') : L.Alike g.tableElements g'.tableElements :=
  .optionalList _ (.bind (.commaList h.tableElement) fun _ => .expect (.pure _))

theorem createTable (h : L.Grammars g g') (orReplace temporary : Bool) :
    L.Alike (g.createTable orReplace temporary) (g'.createTable orReplace temporary) := by
  refine .bind alike_ifNotExists fun _ => .bind alike_qualifiedName fun _ =>
    .bind alike_onCluster fun _ => .bind h.tableElements fun _ =>
      .bind (.optional _ h.engine) fun _ => .bind (.acceptAll (by decide)) fun _ =>
        .ite (.bind (.map some h.anyExpr) fun _ => ?_) (.bind (.pure none) fun _ => ?_)
  -- The clauses behind the partitions are the same on both ways.
  all_goals
    exact .bind (.optional _ (.expect h.anyExpr)) fun _ =>
      .bind (.optional _ (.expect h.anyExpr)) fun _ =>
        .bind (.optionalList _ (.commaList h.setting)) fun _ =>
          .bind (.optional _ (alike_stringLiteral _)) fun _ => .bind (.optional _ h.query) fun _ =>
            .ite (.bind (.fail _) fun _ => .pure _) (.pure _)

/-! ### Other objects -/

theorem createView (h : L.Grammars g g') (orReplace materialized : Bool) :
    L.Alike (g.createView orReplace materialized) (g'.createView orReplace materialized) :=
  .bind alike_ifNotExists fun _ => .bind alike_qualifiedName fun _ => .bind alike_onCluster fun _ =>
    .bind (.optional _ alike_qualifiedName) fun _ => .bind alike_optionalNameList fun _ =>
      .expect (.bind h.query fun _ => .pure _)

theorem createIndex (h : L.Grammars g g') (unique : Bool) :
    L.Alike (g.createIndex unique) (g'.createIndex unique) :=
  .bind alike_ifNotExists fun _ => .bind alike_identifier fun _ => .expect
    (.bind alike_qualifiedName fun _ => .bind (.between _ _ (.commaList
      (.bind h.anyExpr fun _ => .bind sortDirection fun _ => .pure _))) fun _ => .pure _)

theorem createDatabase (h : L.Grammars g g') : L.Alike g.createDatabase g'.createDatabase :=
  .bind alike_ifNotExists fun _ => .bind alike_identifier fun _ => .bind alike_onCluster fun _ =>
    .bind (.optional _ h.engine) fun _ => .pure _

theorem create (h : L.Grammars g g') : L.Alike g.create g'.create := by
  refine .expect (.bind (.acceptAll (by decide)) fun orReplace => ?_)
  refine .accept (.expect (.bind (h.createTable _ _) fun _ => .pure _)) ?_
  refine .accept (.bind (h.createTable _ _) fun _ => .pure _) ?_
  refine .accept (.expect (.bind (h.createView _ _) fun _ => .pure _)) ?_
  refine .accept (.bind (h.createView _ _) fun _ => .pure _) (.ite (.fail _) ?_)
  refine .accept (.expect (.bind (h.createIndex _) fun _ => .pure _)) ?_
  refine .accept (.bind (h.createIndex _) fun _ => .pure _) ?_
  exact .accept (.bind h.createDatabase fun _ => .pure _) (.fail _)

theorem columnPlace : L.Alike columnPlace columnPlace :=
  .accept (.pure _) (.accept (.bind alike_identifier fun _ => .pure _) (.pure _))

theorem addition (h : L.Grammars g g') : L.Alike g.addition g'.addition :=
  .accept (.bind alike_ifNotExists fun _ => .bind (h.columnDefinition true) fun _ =>
      .bind columnPlace fun _ => .pure _)
    (.accept (.bind alike_ifNotExists fun _ => .bind alike_identifier fun _ =>
      .expect (.bind h.anyExpr fun _ => .pure _)) (.fail _))

theorem removal : L.Alike removal removal :=
  .accept (.bind alike_ifExists fun _ => .bind alike_identifier fun _ => .pure _)
    (.accept (.bind alike_ifExists fun _ => .bind alike_identifier fun _ => .pure _) (.fail _))

theorem renamedPart : L.Alike renamedPart renamedPart :=
  .accept (.bind alike_qualifiedName fun _ => .pure _)
    (.expect (.bind alike_ifExists fun _ => .bind alike_identifier fun _ =>
      .expect (.bind alike_identifier fun _ => .pure _)))

theorem alterAction (h : L.Grammars g g') : L.Alike g.alterAction g'.alterAction := by
  refine .accept h.addition (.accept removal (.accept ?_ (.accept renamedPart ?_)))
  · exact .expect (.bind alike_ifExists fun _ => .bind (h.columnDefinition false) fun _ => .pure _)
  refine .accept (.expect (.bind alike_ifExists fun _ => .bind alike_identifier fun _ =>
    .bind (alike_stringLiteral _) fun _ => .pure _)) ?_
  refine .accept (.expect (.bind h.anyExpr fun _ => .pure _)) ?_
  exact .accept (.bind (.commaList h.assignment) fun _ => .expect (.bind h.anyExpr fun _ => .pure _))
    (.fail _)

theorem alterTable (h : L.Grammars g g') : L.Alike g.alterTable g'.alterTable :=
  .expect (.expect (.bind alike_qualifiedName fun _ => .bind alike_onCluster fun _ =>
    .bind (.commaList h.alterAction) fun _ => .pure _))

theorem drop : L.Alike drop drop :=
  .expect (.bind (.accept (.pure _) (.accept (.pure _) (.accept (.pure _) (.accept (.pure _) (.fail _)))))
    fun _ => .bind alike_ifExists fun _ => .bind (.commaList alike_qualifiedName) fun _ =>
      .bind alike_onCluster fun _ => .pure _)

theorem truncate : L.Alike truncate truncate :=
  .expect (.discard_accept (.bind alike_ifExists fun _ => .bind alike_qualifiedName fun _ =>
    .bind alike_onCluster fun _ => .pure _))

theorem rename : L.Alike rename rename :=
  .expect (.expect (.bind (.commaList (.bind alike_qualifiedName fun _ =>
    .expect (.bind alike_qualifiedName fun _ => .pure _))) fun _ => .bind alike_onCluster fun _ => .pure _))

/-! ### Sessions -/

theorem useDatabase : L.Alike useDatabase useDatabase :=
  .expect (.bind alike_identifier fun _ => .pure _)

theorem changeSettings (h : L.Grammars g g') : L.Alike g.changeSettings g'.changeSettings :=
  .expect (.bind (.commaList h.setting) fun _ => .pure _)

theorem listing : L.Alike listing listing :=
  .expect (.accept (.pure _) (.accept
    (.bind (.optional _ alike_identifier) fun _ =>
      .bind (.optional _ (alike_stringLiteral _)) fun _ => .pure _)
    (.accept (.expect (.bind alike_qualifiedName fun _ => .pure _)) (.fail _))))

theorem describe : L.Alike describe describe := by
  have table : L.Alike
      (do
        discard (Parse.accept TABLE)
        return Statement.describe (← qualifiedName))
      (do
        discard (Parse.accept TABLE)
        return .describe (← qualifiedName)) :=
    .discard_accept (.bind alike_qualifiedName fun _ => .pure _)
  exact .accept table (.expect table)

theorem explainStage : L.Alike explainStage explainStage :=
  .accept (.pure _) (.accept (.pure _) (.accept (.pure _) (.accept (.pure _) (.pure _))))

theorem explain (h : L.Grammars g g') : L.Alike g.explain g'.explain :=
  .expect (.bind explainStage fun _ => .bind (.descend h.statement) fun _ => .pure _)

theorem optimize : L.Alike optimize optimize :=
  .expect (.expect (.bind alike_qualifiedName fun _ => .bind alike_onCluster fun _ =>
    .bind (.accepted _) fun _ => .pure _))

/-- A statement about transactions, from its first word on. -/
theorem transaction {c : Cursor} (d : Cursor) (hk : c.current.kind ≠ .eof) (statement : Statement) :
    L.AlikeAt (Same _) (transaction statement) (transaction statement) c d := by
  have rest : L.Alike
      (do
        discard (Parse.accept TRANSACTION)
        return statement)
      (do
        discard (Parse.accept TRANSACTION)
        return statement) := .discard_accept (.pure _)
  exact .discard_advance hk fun c' d' _ => rest c' d'

/-! ### Statements of every kind -/

theorem wordStatement (h : L.Grammars g g') {c : Cursor} (d : Cursor) (hk : c.current.kind ≠ .eof)
    (w : Word) : L.AlikeAt (Same _) (g.wordStatement w) (g'.wordStatement w) c d := by
  unfold Grammar.wordStatement
  split
  · exact Alike.bind truncate (fun _ => .pure _) c d
  · exact Alike.bind rename (fun _ => .pure _) c d
  · exact useDatabase c d
  · exact Alike.bind listing (fun _ => .pure _) c d
  · exact describe c d
  · exact h.explain c d
  · exact Alike.bind optimize (fun _ => .pure _) c d
  · exact transaction d hk _
  · exact transaction d hk _
  · exact transaction d hk _
  · exact .fail _

theorem statementRule (h : L.Grammars g g') : L.Alike g.statementRule g'.statementRule := by
  intro c d
  refine .peek ⟨rfl, rfl⟩ ?_
  split
  · exact Alike.bind h.queryRule (fun _ => .pure _) c d
  · exact Alike.bind h.queryRule (fun _ => .pure _) c d
  · exact Alike.bind h.queryRule (fun _ => .pure _) c d
  · exact Alike.bind h.insert (fun _ => .pure _) c d
  · exact Alike.bind h.update (fun _ => .pure _) c d
  · exact Alike.bind h.delete (fun _ => .pure _) c d
  · exact h.create c d
  · exact Alike.bind h.alterTable (fun _ => .pure _) c d
  · exact Alike.bind drop (fun _ => .pure _) c d
  · exact h.changeSettings c d
  · exact describe c d
  · next name hk =>
    split
    · exact h.wordStatement d (by simp [hk]) _
    · exact .fail _
  · exact .fail _

/-! ### Grammars of constructs inside one another -/

theorem step (h : L.Grammars g g') : L.Grammars g.step g'.step where
  refuses := refuses_exprRule g
  expr := h.exprRule
  query := h.queryRule
  body := h.bodyRule
  dataType := h.dataTypeRule
  statement := h.statementRule

/-- The grammar that parses nothing fails, whatever the other one does if its tokens go on. -/
theorem empty (g : Grammar) (h : L.beyond = [] → g = Grammar.empty) : L.Grammars Grammar.empty g := by
  by_cases closed : L.beyond = []
  · rw [h closed]
    exact ⟨fun _ => .fail _, fun _ => .fail _, .fail _, fun _ => .fail _, .fail _, .fail _⟩
  · exact ⟨fun _ => .fail _, fun _ _ _ _ _ _ => .cut closed, fun _ _ _ _ _ => .cut closed,
      fun _ _ _ _ _ _ => .cut closed, fun _ _ _ _ _ => .cut closed, fun _ _ _ _ _ => .cut closed⟩

/-- Grammars end alike if the second one can go as deep as the first; if the vectors end together, both
have to go to the same depth. -/
theorem upTo {n m : ℕ} (less : n ≤ m) (same : L.beyond = [] → n = m) :
    L.Grammars (.upTo n) (.upTo m) := by
  induction n generalizing m with
  | zero =>
    refine empty _ fun closed => ?_
    rw [← same closed]
    rfl
  | succ n ih =>
    obtain ⟨m, rfl⟩ : ∃ k, m = k + 1 := ⟨m - 1, by omega⟩
    exact (ih (by omega) fun closed => Nat.succ.inj (same closed)).step

end Grammars

end Likeness

end CanonicalSql
