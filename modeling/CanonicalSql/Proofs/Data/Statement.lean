import CanonicalSql.Proofs.Data.Expr

/-! A printed statement shows its data, all of them and each once, in their order. -/

namespace CanonicalSql

/-! ### Clauses -/

@[simp] theorem data_clusterClause (cluster : Option String) :
    Piece.data (clusterClause cluster) = nameData cluster := by
  cases cluster <;> rfl

@[simp] theorem data_whereClause (selection : Option Expr) :
    Piece.data (whereClause selection) = dataIn Expr.data selection := by
  cases selection with
  | none => rfl
  | some e => simp [whereClause, dataIn, e.data_pieces]

@[simp] theorem data_storageClause {head : List Piece} (o : Option Expr) (fixed : Piece.data head = []) :
    Piece.data (storageClause head o) = dataIn Expr.data o := by
  cases o with
  | none => rfl
  | some e => simp [storageClause, dataIn, fixed, e.data_pieces]

theorem Engine.data_pieces (e : Engine) : Piece.data e.pieces = e.data := by
  obtain ⟨name, args⟩ := e
  cases args with
  | none => rfl
  | some args => simp [Engine.pieces, Engine.data, dataIn, Expr.flatMap_data args]

@[simp] theorem data_engineClause (engine : Option Engine) :
    Piece.data (engineClause engine) = dataIn Engine.data engine := by
  cases engine with
  | none => rfl
  | some e => simp [engineClause, dataIn, e.data_pieces]

@[simp] theorem data_ifNotExistsPieces (present : Bool) :
    Piece.data (ifNotExistsPieces present) = [] := by
  cases present <;> rfl

@[simp] theorem data_ifExistsPieces (present : Bool) :
    Piece.data (ifExistsPieces present) = [] := by
  cases present <;> rfl

/-- The data of a list are those of its items, item by item. -/
theorem flatMap_data_map {α : Type} {pieces : α → List Piece} {data : α → List Datum}
    (h : ∀ a, Piece.data (pieces a) = data a) (as : List α) :
    (as.map pieces).flatMap Piece.data = as.flatMap data := by
  simp [List.flatMap_map, h]

/-! ### Changes of data -/

theorem InsertSource.data_pieces (source : InsertSource) :
    Piece.data source.pieces = source.data := by
  cases source with
  | values rows =>
    have each : ∀ row, Piece.data (rowPieces row) = Expr.allData row := fun row => by
      simp [rowPieces, Expr.flatMap_data row]
    simp [InsertSource.pieces, InsertSource.data, flatMap_data_map each]
  | query q => simp [InsertSource.pieces, InsertSource.data, q.data_pieces]

theorem Insert.data_pieces (i : Insert) : Piece.data i.pieces = i.data := by
  simp [Insert.pieces, Insert.data, i.table.data_pieces, i.source.data_pieces]

theorem Assignment.data_pieces (a : Assignment) : Piece.data a.pieces = a.data := by
  simp [Assignment.pieces, Assignment.data, a.value.data_pieces]

theorem Update.data_pieces (u : Update) : Piece.data u.pieces = u.data := by
  simp [Update.pieces, Update.data, u.table.data_pieces,
    flatMap_data_map Assignment.data_pieces]

theorem Delete.data_pieces (d : Delete) : Piece.data d.pieces = d.data := by
  simp [Delete.pieces, Delete.data, d.table.data_pieces]

/-! ### Definitions -/

theorem ForeignReference.data_pieces (r : ForeignReference) : Piece.data r.pieces = r.data := by
  simp [ForeignReference.pieces, ForeignReference.data, r.table.data_pieces]

@[simp] theorem data_checkPieces (condition : Expr) :
    Piece.data (checkPieces condition) = condition.data := by
  simp [checkPieces, condition.data_pieces]

theorem ColumnOption.data_pieces (option : ColumnOption) :
    Piece.data option.pieces = option.data := by
  cases option with
  | default value | materialized value | computed value =>
    simp [ColumnOption.pieces, ColumnOption.data, value.data_pieces]
  | check condition => exact data_checkPieces condition
  | references target => exact target.data_pieces
  | _ => rfl

theorem ColumnOption.data_flatMap (options : List ColumnOption) :
    Piece.data (options.flatMap fun option => .space :: option.pieces) =
      options.flatMap ColumnOption.data := by
  induction options with
  | nil => rfl
  | cons option options ih => simp [ih, option.data_pieces]

theorem ColumnDefinition.data_pieces (c : ColumnDefinition) : Piece.data c.pieces = c.data := by
  have options := ColumnOption.data_flatMap c.options
  cases type : c.type with
  | none => simp [ColumnDefinition.pieces, ColumnDefinition.data, dataIn, type, options]
  | some t =>
    simp [ColumnDefinition.pieces, ColumnDefinition.data, dataIn, type, options, t.data_pieces]

theorem ConstraintKind.data_pieces (kind : ConstraintKind) : Piece.data kind.pieces = kind.data := by
  cases kind with
  | primaryKey columns | unique columns => simp [ConstraintKind.pieces, ConstraintKind.data]
  | check condition => exact data_checkPieces condition
  | foreignKey columns target =>
    simp [ConstraintKind.pieces, ConstraintKind.data, target.data_pieces]

theorem TableElement.data_pieces (element : TableElement) :
    Piece.data element.pieces = element.data := by
  cases element with
  | column c => exact c.data_pieces
  | constraint c =>
    obtain ⟨name, demand⟩ := c
    cases name <;>
      simp [TableElement.pieces, TableElement.data, TableConstraint.pieces, nameData, dataIn,
        demand.data_pieces]

theorem CreateTable.data_pieces (c : CreateTable) : Piece.data c.pieces = c.data := by
  rw [CreateTable.pieces, CreateTable.data]
  simp only [Piece.data_append, Piece.data_ahead, Piece.data_flag, Piece.data_listClause,
    Piece.data_keyword, Piece.data_word, Piece.data_nil, List.nil_append, c.name.data_pieces,
    data_clusterClause, data_ifNotExistsPieces, data_engineClause, data_storageClause,
    Setting.flatMap_data]
  congr 1
  · congr 1
    · congr 5
      cases c.elements with
      | nil => rfl
      | cons element elements =>
        simp [TableElement.data_pieces, flatMap_data_map TableElement.data_pieces]
    · cases c.comment <;> rfl
  · cases c.query with
    | none => rfl
    | some q => simp [dataIn, q.data_pieces]

theorem CreateView.data_pieces (c : CreateView) : Piece.data c.pieces = c.data := by
  rw [CreateView.pieces, CreateView.data]
  simp only [Piece.data_append, Piece.data_ahead, Piece.data_flag, Piece.data_clause,
    Piece.data_nameList, Piece.data_keyword, Piece.data_word, Piece.data_nil, List.nil_append,
    c.name.data_pieces, c.query.data_pieces, data_clusterClause, data_ifNotExistsPieces]
  congr 2
  cases c.target with
  | none => rfl
  | some target => simp [dataIn, target.data_pieces]

theorem CreateIndex.data_pieces (c : CreateIndex) : Piece.data c.pieces = c.data := by
  have column : ∀ column : IndexColumn, Piece.data column.pieces = column.expr.data := fun c => by
    simp [IndexColumn.pieces, c.expr.data_pieces]
  simp [CreateIndex.pieces, CreateIndex.data, c.table.data_pieces,
    flatMap_data_map column]

theorem CreateDatabase.data_pieces (c : CreateDatabase) : Piece.data c.pieces = c.data := by
  simp [CreateDatabase.pieces, CreateDatabase.data]

/-! ### Changes of objects -/

theorem AlterAction.data_pieces (action : AlterAction) : Piece.data action.pieces = action.data := by
  cases action with
  | addColumn ifNotExists column place =>
    rcases place with _ | _ | _ <;>
      simp [AlterAction.pieces, AlterAction.data, ColumnPlace.clause, ColumnPlace.data, dataIn,
        column.data_pieces]
  | modifyColumn ifExists column =>
    simp [AlterAction.pieces, AlterAction.data, column.data_pieces]
  | renameTable name => simp [AlterAction.pieces, AlterAction.data, name.data_pieces]
  | delete selection => simp [AlterAction.pieces, AlterAction.data, selection.data_pieces]
  | update assignments selection =>
    simp [AlterAction.pieces, AlterAction.data, selection.data_pieces,
      flatMap_data_map Assignment.data_pieces]
  | _ => simp [AlterAction.pieces, AlterAction.data]

theorem Listing.data_pieces (l : Listing) : Piece.data l.pieces = l.data := by
  cases l with
  | databases => rfl
  | tables database pattern => cases database <;> cases pattern <;> rfl
  | createTable name => simp [Listing.pieces, Listing.data, name.data_pieces]

/-! ### Statements -/

/-- A statement shows its data. -/
theorem Statement.data_pieces (statement : Statement) :
    Piece.data statement.pieces = statement.data := by
  induction statement with
  | select q => exact q.data_pieces
  | insert i => exact i.data_pieces
  | update u => exact u.data_pieces
  | delete d => exact d.data_pieces
  | createTable c => exact c.data_pieces
  | createView c => exact c.data_pieces
  | createIndex c => exact c.data_pieces
  | createDatabase c => exact c.data_pieces
  | alterTable a =>
    simp [Statement.pieces, Statement.data, AlterTable.pieces, AlterTable.data,
      a.name.data_pieces, flatMap_data_map AlterAction.data_pieces]
  | drop d =>
    have kind : Piece.data [.keyword .DROP, d.object.piece] = [] := by cases d.object <;> rfl
    simp [Statement.pieces, Statement.data, Drop.pieces, kind,
      flatMap_data_map QualifiedName.data_pieces]
  | truncate t => simp [Statement.pieces, Statement.data, Truncate.pieces, t.name.data_pieces]
  | rename r =>
    have pair : ∀ pair : Renaming,
        Piece.data pair.pieces = pair.source.data ++ pair.target.data := fun pair => by
      simp [Renaming.pieces, pair.source.data_pieces, pair.target.data_pieces]
    simp [Statement.pieces, Statement.data, Rename.pieces, Rename.data, flatMap_data_map pair]
  | useDatabase name => rfl
  | changeSettings settings =>
    simp [Statement.pieces, Statement.data, Setting.flatMap_data settings]
  | listing l => exact l.data_pieces
  | describe table => simp [Statement.pieces, Statement.data, table.data_pieces]
  | explain stage statement ih => cases stage <;> simp [Statement.pieces, Statement.data, ih]
  | optimize o =>
    have final : Piece.data (if o.final then Piece.behind [.word .FINAL] else []) = [] := by
      cases o.final <;> rfl
    simp [Statement.pieces, Statement.data, Optimize.pieces, o.table.data_pieces, final]
  | begin | commit | rollback => rfl

end CanonicalSql
