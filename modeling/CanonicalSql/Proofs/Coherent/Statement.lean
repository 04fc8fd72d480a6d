import CanonicalSql.Proofs.Coherent.Expr

/-! The pieces of a printed statement are coherent, whatever the tree holds, and no piece of a document
runs into the next one. -/

namespace CanonicalSql

/-! ### Clauses -/

@[simp] theorem trailing_clusterClause {cluster : Option String} :
    Trailing (clusterClause cluster) := by
  cases cluster <;> simp [clusterClause]

@[simp] theorem coherent_clusterClause (cluster : Option String) : Coherent (clusterClause cluster) := by
  cases cluster <;> simp [clusterClause]

@[simp] theorem trailing_whereClause {selection : Option Expr} :
    Trailing (whereClause selection) := by
  cases selection <;> simp [whereClause]

@[simp] theorem coherent_whereClause (selection : Option Expr) : Coherent (whereClause selection) := by
  cases selection with
  | none => exact coherent_nil
  | some e => simp [whereClause, e.coherent]

@[simp] theorem trailing_storageClause {head : List Piece} {o : Option Expr} :
    Trailing (storageClause head o) := by
  cases o <;> simp [storageClause]

theorem coherent_storageClause {head : List Piece} (o : Option Expr)
    (h : ∀ p ∈ head, p ≠ .symbol .semicolon) : Coherent (storageClause head o) := by
  cases o with
  | none => exact coherent_nil
  | some e => simpa [storageClause, e.coherent] using h

theorem Engine.coherent (e : Engine) : Coherent e.pieces := by
  obtain ⟨name, args⟩ := e
  cases args with
  | none => simp [Engine.pieces]
  | some args => simpa [Engine.pieces, Piece.parens] using Expr.coherent_each args

@[simp] theorem trailing_engineClause {engine : Option Engine} :
    Trailing (engineClause engine) := by
  cases engine <;> simp [engineClause]

@[simp] theorem coherent_engineClause (engine : Option Engine) : Coherent (engineClause engine) := by
  cases engine with
  | none => exact coherent_nil
  | some e => simp [engineClause, e.coherent]

/-! ### Changes of data -/

theorem InsertSource.coherent (source : InsertSource) : Coherent source.pieces := by
  cases source with
  | values rows =>
    have each : ∀ row ∈ rows, ∀ item ∈ Expr.each row, Coherent item := fun row _ =>
      Expr.coherent_each row
    simpa [InsertSource.pieces, rowPieces] using each
  | query q => simp [InsertSource.pieces, q.coherent]

theorem InsertSource.trailing (source : InsertSource) : Trailing source.pieces := by
  cases source <;> simp [InsertSource.pieces]

theorem Insert.coherent (i : Insert) : Coherent i.pieces := by
  simp [Insert.pieces, i.source.trailing, i.table.coherent, i.source.coherent]

theorem Assignment.coherent (a : Assignment) : Coherent a.pieces := by
  simp [Assignment.pieces, a.value.coherent]

theorem Update.coherent (u : Update) : Coherent u.pieces := by
  simp [Update.pieces, u.table.coherent, Assignment.coherent]

theorem Delete.coherent (d : Delete) : Coherent d.pieces := by
  simp [Delete.pieces, d.table.coherent]

/-! ### Definitions -/

theorem ForeignReference.coherent (r : ForeignReference) : Coherent r.pieces := by
  simp [ForeignReference.pieces, r.table.coherent]

theorem coherent_checkPieces (condition : Expr) : Coherent (checkPieces condition) := by
  simp [checkPieces, condition.coherent]

theorem ColumnOption.coherent (option : ColumnOption) : Coherent option.pieces := by
  cases option with
  | default value | materialized value | computed value =>
    simp [ColumnOption.pieces, value.coherent]
  | check condition => exact coherent_checkPieces condition
  | references target => exact target.coherent
  | _ => simp [ColumnOption.pieces]

theorem ColumnOption.trailing_flatMap (options : List ColumnOption) :
    Trailing (options.flatMap fun option => .space :: option.pieces) := by
  cases options <;> simp

theorem ColumnOption.coherent_flatMap (options : List ColumnOption) :
    Coherent (options.flatMap fun option => .space :: option.pieces) := by
  induction options with
  | nil => exact coherent_nil
  | cons option options ih => simp [ih, ColumnOption.trailing_flatMap options, option.coherent]

theorem ColumnDefinition.coherent (c : ColumnDefinition) : Coherent c.pieces := by
  have options := ColumnOption.coherent_flatMap c.options
  have trailing := ColumnOption.trailing_flatMap c.options
  cases type : c.type with
  | none => simp [ColumnDefinition.pieces, type, options, trailing]
  | some type' => simp [ColumnDefinition.pieces, type, options, trailing, type'.coherent]

theorem ConstraintKind.coherent (kind : ConstraintKind) : Coherent kind.pieces := by
  cases kind with
  | primaryKey columns | unique columns => simp [ConstraintKind.pieces]
  | check condition => exact coherent_checkPieces condition
  | foreignKey columns target => simp [ConstraintKind.pieces, target.coherent]

theorem TableElement.coherent (element : TableElement) : Coherent element.pieces := by
  cases element with
  | column c => exact c.coherent
  | constraint c =>
    obtain ⟨name, demand⟩ := c
    cases name <;> simp [TableElement.pieces, TableConstraint.pieces, demand.coherent]

@[simp] theorem coherent_ifNotExistsPieces {present : Bool} {ps : List Piece} :
    Coherent (ifNotExistsPieces present ++ ps) ↔ Coherent ps := by
  simp [ifNotExistsPieces]

@[simp] theorem coherent_ifExistsPieces {present : Bool} {ps : List Piece} :
    Coherent (ifExistsPieces present ++ ps) ↔ Coherent ps := by
  simp [ifExistsPieces]

theorem CreateTable.coherent (c : CreateTable) : Coherent c.pieces := by
  rw [CreateTable.pieces]
  refine .append (.append (.append (.append (.append (.append (.append (.append ?_ ?_ ?_)
    (coherent_engineClause c.engine) trailing_engineClause)
    (coherent_storageClause c.partitionBy (by simp)) trailing_storageClause)
    (coherent_storageClause c.primaryKey (by simp)) trailing_storageClause)
    (coherent_storageClause c.orderBy (by simp)) trailing_storageClause)
    ?_ trailing_listClause) ?_ ?_) ?_ ?_
  · simp [c.name.coherent]
  · split
    · exact coherent_nil
    · simp [TableElement.coherent]
  · split <;> simp
  · simpa using Setting.coherent_each c.settings
  · cases c.comment <;> simp
  · cases c.comment <;> simp
  · cases c.query with
    | none => exact coherent_nil
    | some q => simp [q.coherent]
  · cases c.query <;> simp

theorem CreateView.coherent (c : CreateView) : Coherent c.pieces := by
  rw [CreateView.pieces]
  refine .append (.append (.append ?_ ?_ ?_) (coherent_nameList c.columns) trailing_nameList)
    ?_ trailing_clause
  · simp [c.name.coherent]
  · cases c.target with
    | none => exact coherent_nil
    | some target => simp [target.coherent]
  · cases c.target <;> simp
  · simp [c.query.coherent]

theorem CreateIndex.coherent (c : CreateIndex) : Coherent c.pieces := by
  simp [CreateIndex.pieces, IndexColumn.pieces, c.table.coherent, Expr.coherent]

theorem CreateDatabase.coherent (c : CreateDatabase) : Coherent c.pieces := by
  simp [CreateDatabase.pieces]

/-! ### Changes of objects -/

theorem AlterAction.coherent (action : AlterAction) : Coherent action.pieces := by
  cases action with
  | addColumn ifNotExists column place =>
    rcases place with _ | _ | _ <;> simp [AlterAction.pieces, ColumnPlace.clause, column.coherent]
  | modifyColumn ifExists column => simp [AlterAction.pieces, column.coherent]
  | addConstraint ifNotExists name check => simp [AlterAction.pieces, coherent_checkPieces]
  | renameTable name => simp [AlterAction.pieces, name.coherent]
  | delete selection => simp [AlterAction.pieces, selection.coherent]
  | update assignments selection => simp [AlterAction.pieces, Assignment.coherent, selection.coherent]
  | _ => simp [AlterAction.pieces]

theorem Renaming.coherent (r : Renaming) : Coherent r.pieces := by
  simp [Renaming.pieces, r.source.coherent, r.target.coherent]

theorem Listing.coherent (l : Listing) : Coherent l.pieces := by
  cases l with
  | databases => simp [Listing.pieces]
  | tables database pattern => cases database <;> cases pattern <;> simp [Listing.pieces]
  | createTable name => simp [Listing.pieces, name.coherent]

/-! ### Statements and documents -/

theorem Statement.coherent (statement : Statement) : Coherent statement.pieces := by
  induction statement with
  | select q => exact q.coherent
  | insert i => exact i.coherent
  | update u => exact u.coherent
  | delete d => exact d.coherent
  | createTable c => exact c.coherent
  | createView c => exact c.coherent
  | createIndex c => exact c.coherent
  | createDatabase c => exact c.coherent
  | alterTable a => simp [Statement.pieces, AlterTable.pieces, a.name.coherent, AlterAction.coherent]
  | drop d =>
    have kind : d.object.piece ≠ .symbol .semicolon := by cases d.object <;> simp [ObjectKind.piece]
    simp [Statement.pieces, Drop.pieces, kind, QualifiedName.coherent]
  | truncate t => simp [Statement.pieces, Truncate.pieces, t.name.coherent]
  | rename r => simp [Statement.pieces, Rename.pieces, Renaming.coherent]
  | useDatabase name => simp [Statement.pieces]
  | changeSettings settings => simpa [Statement.pieces] using Setting.coherent_each settings
  | listing l => exact l.coherent
  | describe table => simp [Statement.pieces, table.coherent]
  | explain stage statement ih => cases stage <;> simp [Statement.pieces, ih]
  | optimize o =>
    rw [Statement.pieces, Optimize.pieces]
    cases o.final <;> simp [o.table.coherent]
  | begin | commit | rollback => simp [Statement.pieces]

theorem apart_documentPieces (statements : List Statement) : Apart (documentPieces statements) := by
  induction statements with
  | nil => exact .nil
  | cons statement statements ih =>
    rw [documentPieces, List.flatMap_cons, List.append_assoc, List.cons_append,
      apart_append_of_isBreak rfl]
    exact ⟨statement.coherent.1, (apart_cons_of_isBreak rfl).2 ih⟩

end CanonicalSql
