import CanonicalSql.Parser.Statement
import CanonicalSql.Proofs.Progress.Query

/-! The rules for statements over two grammars that do the same near the end. -/

namespace CanonicalSql

open Keyword Word CanonicalSql.Symbol

namespace Grammar

open Parse

variable {n : ℕ}

/-! ### Rules without anything inside -/

theorem together_foreignReference : Parse.Together n foreignReference foreignReference :=
  .expect (.bind together_qualifiedName fun _ => .bind together_optionalNameList fun _ => .pure _)

theorem together_columnPlace : Parse.Together n columnPlace columnPlace :=
  .accept (.pure _) (.accept (.bind together_identifier fun _ => .pure _) (.pure none))

theorem together_removal : Parse.Together n removal removal := by
  have named : ∀ action : Bool → String → AlterAction, Parse.Together n
      (do
        let missing ← ifExists
        return action missing (← identifier))
      (do
        let missing ← ifExists
        return action missing (← identifier)) :=
    fun _ => .bind together_ifExists fun _ => .bind together_identifier fun _ => .pure _
  exact .accept (named _) (.accept (named _) (.fail _))

theorem together_renamedPart : Parse.Together n renamedPart renamedPart := by
  refine .accept (.bind together_qualifiedName fun _ => .pure _) (.expect ?_)
  refine .bind together_ifExists fun _ => .bind together_identifier fun _ => .expect ?_
  exact .bind together_identifier fun _ => .pure _

theorem together_droppedKind : Parse.Together n droppedKind droppedKind :=
  .accept (.pure _) (.accept (.pure _) (.accept (.pure _) (.accept (.pure _) (.fail _))))

theorem starts_drop : Parse.Starts n drop drop := by
  refine .expect (.bind together_droppedKind fun _ => .bind together_ifExists fun _ => ?_)
  exact .bind together_qualifiedName.commaList fun _ => .bind together_onCluster fun _ => .pure _

theorem starts_truncate : Parse.Starts n truncate truncate := by
  refine .expect (.discard_accept (.bind together_ifExists fun _ => ?_))
  exact .bind together_qualifiedName fun _ => .bind together_onCluster fun _ => .pure _

theorem starts_rename : Parse.Starts n rename rename := by
  have newName : Parse.Together n newName newName :=
    .bind together_qualifiedName fun _ => .expect (.bind together_qualifiedName fun _ => .pure _)
  exact .expect (.expect (.bind newName.commaList fun _ => .bind together_onCluster fun _ => .pure _))

theorem starts_useDatabase : Parse.Starts n useDatabase useDatabase :=
  .expect (.bind together_identifier fun _ => .pure _)

theorem starts_listing : Parse.Starts n listing listing := by
  refine .expect (.accept (.pure _) (.accept ?_ (.accept ?_ (.fail _))))
  · refine .bind together_identifier.optional fun _ => ?_
    exact .bind (together_stringLiteral _).optional fun _ => .pure _
  · exact .expect (.bind together_qualifiedName fun _ => .pure _)

theorem starts_describe : Parse.Starts n describe describe := by
  have behind : Parse.Together n
      (do
        discard (accept TABLE)
        return Statement.describe (← qualifiedName))
      (do
        discard (accept TABLE)
        return Statement.describe (← qualifiedName)) :=
    .discard_accept (.bind together_qualifiedName fun _ => .pure _)
  exact .accept behind (.expect behind)

theorem together_explainStage : Parse.Together n explainStage explainStage :=
  .accept (.pure _) (.accept (.pure _) (.accept (.pure _) (.accept (.pure _) (.pure none))))

theorem starts_optimize : Parse.Starts n optimize optimize := by
  refine .expect (.expect (.bind together_qualifiedName fun _ => .bind together_onCluster fun _ => ?_))
  exact .bind (.accepted _) fun _ => .pure _

theorem startsAt_transaction {k : Token.Kind} (inside : k ≠ .eof) (statement : Statement) :
    Parse.StartsAt k n (transaction statement) (transaction statement) :=
  .discard_advance inside (.discard_accept (.pure statement))

namespace Together

variable {g g' : Grammar}

/-! ### Changes of data -/

theorem row (h : g.Together n g') : Parse.Together n g.row g'.row := h.anyExpr.commaList.between

theorem rows {x y : Parse (List Expr)} (h : Parse.Together n x y) (count : ℕ) :
    Parse.Together n (Grammar.rows x count) (Grammar.rows y count) := by
  induction count with
  | zero => exact .pure []
  | succ count ih =>
    refine .bind (.accepted _) fun _ => .sees fun _ => .ite ?_ (.pure [])
    exact .bind h fun _ => .bind ih fun _ => .pure _

theorem insertSource (h : g.Together n g') : Parse.Together n g.insertSource g'.insertSource := by
  refine .accept ?_ (.peek fun _ => .sees fun _ => .ite (.bind h.query fun _ => .pure _) (.fail _))
  exact .bind h.row fun _ => .remaining fun count => .bind (rows h.row count) fun _ => .pure _

theorem insert (h : g.Together n g') : Parse.Starts n g.insert g'.insert := by
  have source : ∀ (table : QualifiedName) (columns : List String), Parse.Together n
      (do return Insert.mk table columns (← g.insertSource))
      (do return Insert.mk table columns (← g'.insertSource)) :=
    fun _ _ => .bind h.insertSource fun _ => .pure _
  refine .expect (.expect (.discard_accept (.bind together_qualifiedName fun table => ?_)))
  refine .peekAt fun _ => .ite (.bind (.pure []) fun columns => source table columns) ?_
  exact .bind together_optionalNameList fun columns => source table columns

theorem assignment (h : g.Together n g') : Parse.Together n g.assignment g'.assignment :=
  .bind together_identifier fun _ => .expect (.bind h.anyExpr fun _ => .pure _)

theorem update (h : g.Together n g') : Parse.Starts n g.update g'.update := by
  refine .expect (.bind together_qualifiedName fun _ => .bind together_aliasName fun _ => ?_)
  exact .expect (.bind h.assignment.commaList fun _ => .bind h.anyExpr.optional fun _ => .pure _)

theorem delete (h : g.Together n g') : Parse.Starts n g.delete g'.delete := by
  refine .expect (.expect (.bind together_qualifiedName fun _ => .bind together_onCluster fun _ => ?_))
  exact .bind h.anyExpr.optional fun _ => .pure _

/-! ### Definitions -/

theorem columnOption (h : g.Together n g') : Parse.Together n g.columnOption g'.columnOption := by
  have computed : ∀ option : Expr → ColumnOption, Parse.Together n
      (do return some (option (← g.anyExpr))) (do return some (option (← g'.anyExpr))) :=
    fun _ => .bind h.anyExpr fun _ => .pure _
  refine .accept (.pure _) (.accept (.expect (.pure _)) (.accept (computed _) (.accept (computed _) ?_)))
  refine .accept (computed _) (.accept (.expect (.pure _)) (.accept (.pure _) (.accept (computed _) ?_)))
  refine .accept (.bind (together_stringLiteral _) fun _ => .pure _) (.sees fun _ => .ite ?_ (.pure none))
  exact .bind together_foreignReference fun _ => .pure _

theorem columnOptions (h : g.Together n g') (count : ℕ) :
    Parse.Together n (g.columnOptions count) (g'.columnOptions count) := by
  induction count with
  | zero => exact .pure []
  | succ count ih =>
    refine .bind h.columnOption fun option => ?_
    cases option with
    | none => exact .pure []
    | some option => exact .bind ih fun _ => .pure _

theorem columnDefinition (h : g.Together n g') (beforePlace : Bool) :
    Parse.Together n (g.columnDefinition beforePlace) (g'.columnDefinition beforePlace) := by
  have options : ∀ (name : String) (type : Option DataType), Parse.Together n
      (do return ColumnDefinition.mk name type (← g.columnOptions (← remaining)))
      (do return ColumnDefinition.mk name type (← g'.columnOptions (← remaining))) :=
    fun _ _ => .remaining fun count => .bind (h.columnOptions count) fun _ => .pure _
  refine .bind together_identifier fun name => .peek fun k => .ite ?_ ?_
  · exact .bind (.map some h.dataType) fun type => options name type
  · exact .bind (.pure none) fun type => options name type

theorem constraintKind (h : g.Together n g') :
    Parse.Together n g.constraintKind g'.constraintKind := by
  refine .accept (.expect (.bind together_nameList fun _ => .pure _)) (.accept ?_ (.accept ?_ ?_))
  · exact .bind together_nameList fun _ => .pure _
  · exact .bind h.anyExpr fun _ => .pure _
  · refine .accept (.expect (.bind together_nameList fun _ => ?_)) (.fail _)
    exact .bind together_foreignReference fun _ => .pure _

theorem tableElement (h : g.Together n g') : Parse.Together n g.tableElement g'.tableElement := by
  refine .peek fun _ => .ite (.bind ?_ fun _ => .pure _) (.bind (h.columnDefinition false) fun _ => .pure _)
  exact .bind together_identifier.optional fun _ => .bind h.constraintKind fun _ => .pure _

theorem engine (h : g.Together n g') : Parse.Together n g.engine g'.engine := by
  refine .discard_accept (.bind (together_label _) fun _ => .bind (.optional ?_) fun _ => .pure _)
  exact .bind h.anyExpr.commaListUpTo fun _ => .expect (.pure _)

theorem tableElements (h : g.Together n g') : Parse.Together n g.tableElements g'.tableElements :=
  .optionalList (.bind h.tableElement.commaList fun _ => .expect (.pure _))

theorem createTable (h : g.Together n g') (orReplace temporary : Bool) :
    Parse.Together n (g.createTable orReplace temporary) (g'.createTable orReplace temporary) := by
  have clauses : ∀ (ifNotExists : Bool) (name : QualifiedName) (cluster : Option String)
      (elements : List TableElement) (engine : Option Engine) (partitionBy : Option Expr), Parse.Together n
      (do
        let primaryKey ← optional PRIMARY do
          expect KEY
          g.anyExpr
        let orderBy ← optional ORDER do
          expect BY
          g.anyExpr
        let settings ← optionalList SETTINGS (commaList g.setting)
        let comment ← optional COMMENT (stringLiteral .comment)
        let query ← optional AS g.query
        if elements.isEmpty && query.isNone then fail .tableContents
        return CreateTable.mk orReplace temporary ifNotExists name cluster elements engine partitionBy
          primaryKey orderBy settings comment query)
      (do
        let primaryKey ← optional PRIMARY do
          expect KEY
          g'.anyExpr
        let orderBy ← optional ORDER do
          expect BY
          g'.anyExpr
        let settings ← optionalList SETTINGS (commaList g'.setting)
        let comment ← optional COMMENT (stringLiteral .comment)
        let query ← optional AS g'.query
        if elements.isEmpty && query.isNone then fail .tableContents
        return CreateTable.mk orReplace temporary ifNotExists name cluster elements engine partitionBy
          primaryKey orderBy settings comment query) := by
    intro _ _ _ _ _ _
    refine .bind (.optional (.expect h.anyExpr)) fun _ => .bind (.optional (.expect h.anyExpr)) fun _ => ?_
    refine .bind h.setting.commaList.optionalList fun _ => ?_
    refine .bind (together_stringLiteral _).optional fun _ => .bind h.query.optional fun _ => ?_
    exact .ite (.bind (.fail _) fun _ => .pure _) (.pure _)
  refine .bind together_ifNotExists fun _ => .bind together_qualifiedName fun _ => ?_
  refine .bind together_onCluster fun _ => .bind h.tableElements fun _ => .bind h.engine.optional fun _ => ?_
  refine .bind (.acceptAll _) fun _ => .ite ?_ ?_
  · exact .bind (.map some h.anyExpr) fun _ => clauses _ _ _ _ _ _
  · exact .bind (.pure none) fun _ => clauses _ _ _ _ _ _

theorem createView (h : g.Together n g') (orReplace materialized : Bool) :
    Parse.Together n (g.createView orReplace materialized) (g'.createView orReplace materialized) := by
  refine .bind together_ifNotExists fun _ => .bind together_qualifiedName fun _ => ?_
  refine .bind together_onCluster fun _ => .bind together_qualifiedName.optional fun _ => ?_
  exact .bind together_optionalNameList fun _ => .expect (.bind h.query fun _ => .pure _)

theorem createIndex (h : g.Together n g') (unique : Bool) :
    Parse.Together n (g.createIndex unique) (g'.createIndex unique) := by
  have column : Parse.Together n g.indexColumn g'.indexColumn :=
    .bind h.anyExpr fun _ => .bind together_sortDirection fun _ => .pure _
  refine .bind together_ifNotExists fun _ => .bind together_identifier fun _ => .expect ?_
  exact .bind together_qualifiedName fun _ => .bind column.commaList.between fun _ => .pure _

theorem createDatabase (h : g.Together n g') :
    Parse.Together n g.createDatabase g'.createDatabase := by
  refine .bind together_ifNotExists fun _ => .bind together_identifier fun _ => ?_
  exact .bind together_onCluster fun _ => .bind h.engine.optional fun _ => .pure _

theorem create (h : g.Together n g') : Parse.Starts n g.create g'.create := by
  have table : ∀ orReplace temporary : Bool, Parse.Together n
      (do return Statement.createTable (← g.createTable orReplace temporary))
      (do return Statement.createTable (← g'.createTable orReplace temporary)) :=
    fun _ _ => .bind (h.createTable _ _) fun _ => .pure _
  have view : ∀ orReplace materialized : Bool, Parse.Together n
      (do return Statement.createView (← g.createView orReplace materialized))
      (do return Statement.createView (← g'.createView orReplace materialized)) :=
    fun _ _ => .bind (h.createView _ _) fun _ => .pure _
  have index : ∀ unique : Bool, Parse.Together n
      (do return Statement.createIndex (← g.createIndex unique))
      (do return Statement.createIndex (← g'.createIndex unique)) :=
    fun _ => .bind (h.createIndex _) fun _ => .pure _
  refine .expect (.bind (.acceptAll _) fun orReplace => .accept (.expect (table _ _)) ?_)
  refine .accept (table _ _) (.accept (.expect (view _ _)) (.accept (view _ _) ?_))
  cases orReplace with
  | true => exact .fail _
  | false =>
    refine .accept (.expect (index _)) (.accept (index _) (.accept ?_ (.fail _)))
    exact .bind h.createDatabase fun _ => .pure _

/-! ### Alterations -/

theorem addition (h : g.Together n g') : Parse.Together n g.addition g'.addition := by
  refine .accept ?_ (.accept ?_ (.fail _))
  · refine .bind together_ifNotExists fun _ => .bind (h.columnDefinition true) fun _ => ?_
    exact .bind together_columnPlace fun _ => .pure _
  · refine .bind together_ifNotExists fun _ => .bind together_identifier fun _ => .expect ?_
    exact .bind h.anyExpr fun _ => .pure _

theorem alterAction (h : g.Together n g') : Parse.Together n g.alterAction g'.alterAction := by
  refine .accept h.addition (.accept together_removal (.accept ?_ (.accept together_renamedPart ?_)))
  · refine .expect (.bind together_ifExists fun _ => ?_)
    exact .bind (h.columnDefinition false) fun _ => .pure _
  · refine .accept ?_ (.accept ?_ (.accept ?_ (.fail _)))
    · refine .expect (.bind together_ifExists fun _ => .bind together_identifier fun _ => ?_)
      exact .bind (together_stringLiteral _) fun _ => .pure _
    · exact .expect (.bind h.anyExpr fun _ => .pure _)
    · exact .bind h.assignment.commaList fun _ => .expect (.bind h.anyExpr fun _ => .pure _)

theorem alterTable (h : g.Together n g') : Parse.Starts n g.alterTable g'.alterTable := by
  refine .expect (.expect (.bind together_qualifiedName fun _ => .bind together_onCluster fun _ => ?_))
  exact .bind h.alterAction.commaList fun _ => .pure _

/-! ### Statements -/

theorem changeSettings (h : g.Together n g') :
    Parse.Starts n g.changeSettings g'.changeSettings :=
  .expect (.bind h.setting.commaList fun _ => .pure _)

theorem explain (h : g.Together n g') : Parse.Starts n g.explain g'.explain :=
  .expect (.bind together_explainStage fun _ => .bind h.statement.descend fun _ => .pure _)

theorem wordStatement (h : g.Together n g') {k : Token.Kind} (inside : k ≠ .eof) (w : Word) :
    Parse.StartsAt k n (g.wordStatement w) (g'.wordStatement w) := by
  unfold Grammar.wordStatement
  split
  · exact .of_starts (.bind starts_truncate fun _ => .pure _)
  · exact .of_starts (.bind starts_rename fun _ => .pure _)
  · exact .of_starts starts_useDatabase
  · exact .of_starts (.bind starts_listing fun _ => .pure _)
  · exact .of_starts starts_describe
  · exact .of_starts h.explain
  · exact .of_starts (.bind starts_optimize fun _ => .pure _)
  · exact startsAt_transaction inside _
  · exact startsAt_transaction inside _
  · exact startsAt_transaction inside _
  · exact .of_starts (.fail _)

theorem statementRule (h : g.Together n g') : Parse.Starts n g.statementRule g'.statementRule := by
  have query : Parse.Starts n (do return Statement.select (← g.queryRule))
      (do return Statement.select (← g'.queryRule)) := .bind h.queryRule fun _ => .pure _
  apply Parse.Starts.peek
  intro k
  split
  · exact .of_starts query
  · exact .of_starts query
  · exact .of_starts query
  · exact .of_starts (.bind h.insert fun _ => .pure _)
  · exact .of_starts (.bind h.update fun _ => .pure _)
  · exact .of_starts (.bind h.delete fun _ => .pure _)
  · exact .of_starts h.create
  · exact .of_starts (.bind h.alterTable fun _ => .pure _)
  · exact .of_starts (.bind starts_drop fun _ => .pure _)
  · exact .of_starts h.changeSettings
  · exact .of_starts starts_describe
  · split
    · exact h.wordStatement (by simp) _
    · exact .of_starts (.fail _)
  · exact .of_starts (.fail _)

/-- The rules that refer to two grammars do the same one token further from the end. -/
theorem step (h : g.Together n g') : g.step.Together (n + 1) g'.step where
  expr level := (h.exprRule level).together
  query := h.queryRule.together
  body level := (h.bodyRule level).together
  dataType := h.dataTypeRule.together
  statement := h.statementRule.together

end Together

end Grammar

end CanonicalSql
