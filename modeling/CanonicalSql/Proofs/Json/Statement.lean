import Mathlib
import CanonicalSql.Proofs.Json.Expr

/-! Statements are read back from their JSON form. -/

namespace CanonicalSql

open Json TreeReader

variable {n : Nat}

/-! ### Changes of data -/

theorem InsertSource.readAt : (s : InsertSource) → ReadAt n (upTo n).insertSource s.encode s
  | .values rows => by
    have r : ReadAt (n + 1) (list? (upTo n).exprs) _ rows :=
      .list (.of_map (fun row => Expr.listAt_of_itemsAt (Expr.itemsAt row) n) rows)
    exact .mono (.variant r.mono fun h => by simp [insertSource, variant?, h])
  | .query q => .mono (.variant (q.readAt n) fun h => by simp [insertSource, variant?, h])

theorem Insert.readAt (i : Insert) : ReadAt n (upTo n).insert i.encode i := by
  have t : ReadAt n _ _ i.table := i.table.readAt
  have c : ReadAt (n + 1) _ _ i.columns := .strings i.columns
  have s : ReadAt n _ _ i.source := i.source.readAt
  refine .mono (.record (by simp) (by simp [plainFields, t.plain, c.plain, s.plain]) fun h => ?_)
  simp [TreeReader.insert, fields?, h.field? "table" (by simp) t, h.field? "columns" (by simp) c.mono,
    h.field? "source" (by simp) s]

theorem Assignment.readAt (a : Assignment) : ReadAt n (upTo n).assignment a.encode a := by
  have v := a.value.readAt n
  refine .mono (.record (by simp) (by simp [plainFields, v.plain]) fun h => ?_)
  simp [assignment, fields?, h.field? "column" (by simp) (.string a.column),
    h.field? "value" (by simp) v]

theorem Assignment.listAt (as : List Assignment) :
    ReadAt (n + 1) (list? (upTo n).assignment) (.array (as.map Assignment.encode)) as :=
  .list (.of_map Assignment.readAt as)

theorem Update.readAt (u : Update) : ReadAt n (upTo n).update u.encode u := by
  have t : ReadAt n _ _ u.table := u.table.readAt
  have a : OptionalAt n _ _ u.asName := .string u.asName
  have l : ReadAt (n + 1) _ _ u.assignments := Assignment.listAt u.assignments
  have s : OptionalAt n _ _ u.selection := .of_optional (Expr.readAt · n) u.selection
  refine .mono (.record (by simp)
    (by simp [plainFields, t.plain, a.plain, l.plain, s.plain]) fun h => ?_)
  simp [update, fields?, h.field? "table" (by simp) t, h.optionalField? "alias" (by simp) a,
    h.field? "assignments" (by simp) l.mono, h.optionalField? "selection" (by simp) s]

theorem Delete.readAt (d : Delete) : ReadAt n (upTo n).delete d.encode d := by
  have t : ReadAt n _ _ d.table := d.table.readAt
  have c : OptionalAt n _ _ d.cluster := .string d.cluster
  have s : OptionalAt n _ _ d.selection := .of_optional (Expr.readAt · n) d.selection
  refine .mono (.record (by simp) (by simp [plainFields, t.plain, c.plain, s.plain]) fun h => ?_)
  simp [delete, fields?, h.field? "table" (by simp) t, h.optionalField? "cluster" (by simp) c,
    h.optionalField? "selection" (by simp) s]

/-! ### Definitions -/

theorem ForeignReference.readAt (r : ForeignReference) : ReadAt n foreignReference r.encode r := by
  have t : ReadAt n _ _ r.table := r.table.readAt
  have c : ReadAt (n + 1) _ _ r.columns := .strings r.columns
  refine .mono (.record (by simp) (by simp [plainFields, t.plain, c.plain]) fun h => ?_)
  simp [foreignReference, fields?, h.field? "table" (by simp) t, h.field? "columns" (by simp) c.mono]

theorem ColumnOption.readAt : (o : ColumnOption) → ReadAt n (upTo n).columnOption o.encode o
  | .null | .notNull | .primaryKey | .unique => .name rfl
  | .default value | .materialized value | .computed value | .check value =>
    .mono (.variant (value.readAt n) fun h => by simp [columnOption, variant?, h])
  | .comment text => .mono (.variant (.string text) fun h => by simp [columnOption, variant?, h])
  | .references target => .mono (.variant target.readAt fun h => by simp [columnOption, variant?, h])

theorem ColumnDefinition.readAt (c : ColumnDefinition) :
    ReadAt n (upTo n).columnDefinition c.encode c := by
  have t : OptionalAt n _ _ c.type := .of_optional (DataType.readAt · n) c.type
  have o : ReadAt (n + 1) (list? (upTo n).columnOption) _ c.options :=
    .list (.of_map ColumnOption.readAt c.options)
  refine .mono (.record (by simp) (by simp [plainFields, t.plain, o.plain]) fun h => ?_)
  simp [columnDefinition, fields?, h.field? "name" (by simp) (.string c.name),
    h.optionalField? "data_type" (by simp) t, h.field? "options" (by simp) o.mono]

theorem ConstraintKind.readAt : (k : ConstraintKind) → ReadAt n (upTo n).constraintKind k.encode k
  | .primaryKey columns | .unique columns => by
    have c : ReadAt (n + 1) _ _ columns := .strings columns
    exact .mono (.variant c.mono fun h => by simp [constraintKind, variant?, h])
  | .check condition =>
    .mono (.variant (condition.readAt n) fun h => by simp [constraintKind, variant?, h])
  | .foreignKey columns target => by
    have c : ReadAt (n + 1) _ _ columns := .strings columns
    have t : ReadAt n _ _ target := target.readAt
    refine .mono (.variantRecord (by simp) (by simp [plainFields, c.plain, t.plain]) fun h => ?_)
    simp [constraintKind, variant?, fields?, h.field? "columns" (by simp) c.mono,
      h.field? "reference" (by simp) t]

theorem TableConstraint.readAt (c : TableConstraint) :
    ReadAt n (upTo n).tableConstraint c.encode c := by
  have a : OptionalAt n _ _ c.name := .string c.name
  have k : ReadAt n _ _ c.kind := c.kind.readAt
  refine .mono (.record (by simp) (by simp [plainFields, a.plain, k.plain]) fun h => ?_)
  simp [tableConstraint, fields?, h.optionalField? "name" (by simp) a, h.field? "kind" (by simp) k]

theorem TableElement.readAt : (e : TableElement) → ReadAt n (upTo n).tableElement e.encode e
  | .column c => .mono (.variant c.readAt fun h => by simp [tableElement, variant?, h])
  | .constraint c => .mono (.variant c.readAt fun h => by simp [tableElement, variant?, h])

theorem Engine.readAt (e : Engine) : ReadAt n (upTo n).engine e.encode e := by
  have a : OptionalAt n _ _ e.args :=
    .of_optional (fun args => Expr.listAt_of_itemsAt (Expr.itemsAt args) n) e.args
  refine .mono (.record (by simp) (by simp [plainFields, a.plain]) fun h => ?_)
  simp [engine, fields?, h.field? "name" (by simp) (.string e.name),
    h.optionalField? "args" (by simp) a]

theorem Setting.listAt (ss : List Setting) :
    ReadAt (n + 1) (list? (upTo n).setting) (.array (Setting.encodeAll ss)) ss :=
  .list (Setting.itemsAt ss n)

theorem CreateTable.readAt (c : CreateTable) : ReadAt n (upTo n).createTable c.encode c := by
  have name : ReadAt n _ _ c.name := c.name.readAt
  have cluster : OptionalAt n _ _ c.cluster := .string c.cluster
  have elements : ReadAt (n + 1) (list? (upTo n).tableElement) _ c.elements :=
    .list (.of_map TableElement.readAt c.elements)
  have storage : OptionalAt n _ _ c.engine := .of_optional Engine.readAt c.engine
  have partitionBy : OptionalAt n _ _ c.partitionBy := .of_optional (Expr.readAt · n) c.partitionBy
  have primaryKey : OptionalAt n _ _ c.primaryKey := .of_optional (Expr.readAt · n) c.primaryKey
  have orderBy : OptionalAt n _ _ c.orderBy := .of_optional (Expr.readAt · n) c.orderBy
  have settings : ReadAt (n + 1) _ _ c.settings := Setting.listAt c.settings
  have comment : OptionalAt n _ _ c.comment := .string c.comment
  have query : OptionalAt n _ _ c.query := .of_optional (Query.readAt · n) c.query
  refine .mono (.record (by simp) (by simp [plainFields, name.plain, cluster.plain, elements.plain,
    storage.plain, partitionBy.plain, primaryKey.plain, orderBy.plain, settings.plain, comment.plain,
    query.plain]) fun h => ?_)
  have found : ∀ {α β : Type} {x : Option α} {a : α} {f : α → Option β} {b : β},
      x = some a → f a = some b → x >>= f = some b := fun hx hf => by rw [hx]; exact hf
  refine found rfl ?_
  refine found (h.field? "or_replace" (by simp) (.bool c.orReplace)) ?_
  refine found (h.field? "temporary" (by simp) (.bool c.temporary)) ?_
  refine found (h.field? "if_not_exists" (by simp) (.bool c.ifNotExists)) ?_
  refine found (h.field? "name" (by simp) name) ?_
  refine found (h.optionalField? "cluster" (by simp) cluster) ?_
  refine found (h.field? "elements" (by simp) elements.mono) ?_
  refine found (h.optionalField? "engine" (by simp) storage) ?_
  refine found (h.optionalField? "partition_by" (by simp) partitionBy) ?_
  refine found (h.optionalField? "primary_key" (by simp) primaryKey) ?_
  refine found (h.optionalField? "order_by" (by simp) orderBy) ?_
  refine found (h.field? "settings" (by simp) settings.mono) ?_
  refine found (h.optionalField? "comment" (by simp) comment) ?_
  exact found (h.optionalField? "as_select" (by simp) query) rfl

theorem CreateView.readAt (c : CreateView) : ReadAt n (upTo n).createView c.encode c := by
  have name : ReadAt n _ _ c.name := c.name.readAt
  have cluster : OptionalAt n _ _ c.cluster := .string c.cluster
  have target : OptionalAt n _ _ c.target := .of_optional QualifiedName.readAt c.target
  have columns : ReadAt (n + 1) _ _ c.columns := .strings c.columns
  have query := c.query.readAt n
  refine .mono (.record (by simp) (by simp [plainFields, name.plain, cluster.plain, target.plain,
    columns.plain, query.plain]) fun h => ?_)
  simp [createView, fields?, h.field? "or_replace" (by simp) (.bool c.orReplace),
    h.field? "materialized" (by simp) (.bool c.materialized),
    h.field? "if_not_exists" (by simp) (.bool c.ifNotExists), h.field? "name" (by simp) name,
    h.optionalField? "cluster" (by simp) cluster, h.optionalField? "to" (by simp) target,
    h.field? "columns" (by simp) columns.mono, h.field? "query" (by simp) query]

theorem IndexColumn.readAt (c : IndexColumn) : ReadAt n (upTo n).indexColumn c.encode c := by
  have e := c.expr.readAt n
  have d : OptionalAt n _ _ c.direction := SortDirection.optionalAt c.direction
  refine .mono (.record (by simp) (by simp [plainFields, e.plain, d.plain]) fun h => ?_)
  simp [indexColumn, fields?, h.field? "expr" (by simp) e, h.optionalField? "direction" (by simp) d]

theorem CreateIndex.readAt (c : CreateIndex) : ReadAt n (upTo n).createIndex c.encode c := by
  have t : ReadAt n _ _ c.table := c.table.readAt
  have l : ReadAt (n + 1) (list? (upTo n).indexColumn) _ c.columns :=
    .list (.of_map IndexColumn.readAt c.columns)
  refine .mono (.record (by simp) (by simp [plainFields, t.plain, l.plain]) fun h => ?_)
  simp [createIndex, fields?, h.field? "unique" (by simp) (.bool c.unique),
    h.field? "if_not_exists" (by simp) (.bool c.ifNotExists),
    h.field? "name" (by simp) (.string c.name), h.field? "table" (by simp) t,
    h.field? "columns" (by simp) l.mono]

theorem CreateDatabase.readAt (c : CreateDatabase) : ReadAt n (upTo n).createDatabase c.encode c := by
  have u : OptionalAt n _ _ c.cluster := .string c.cluster
  have e : OptionalAt n _ _ c.engine := .of_optional Engine.readAt c.engine
  refine .mono (.record (by simp) (by simp [plainFields, u.plain, e.plain]) fun h => ?_)
  simp [createDatabase, fields?, h.field? "if_not_exists" (by simp) (.bool c.ifNotExists),
    h.field? "name" (by simp) (.string c.name), h.optionalField? "cluster" (by simp) u,
    h.optionalField? "engine" (by simp) e]

/-! ### Alterations -/

theorem ColumnPlace.readAt : (p : ColumnPlace) → ReadAt n columnPlace p.encode p
  | .first => .name rfl
  | .after column => .mono (.variant (.string column) fun h => by simp [columnPlace, variant?, h])

/-- An action that is written as a record. -/
theorem readAt_composedAction {name : String} {fields : List (String × Json)} {a : AlterAction}
    (rule : ∀ (t : TreeReader) (content : Json),
      t.alterAction (.object [(name, content)]) = t.composedAction name content)
    (distinct : (fields.map Prod.fst).Nodup) (plain : plainFields fields = true)
    (read : ∀ {left}, FieldsAt n fields left → (upTo n).composedAction name (.object left) = some a) :
    ReadAt n (upTo n).alterAction (.variant name (.object fields)) a :=
  .mono (.variantRecord distinct plain fun h => (rule _ _).trans (read h))

theorem AlterAction.readAt : (a : AlterAction) → ReadAt n (upTo n).alterAction a.encode a
  | .addColumn ifNotExists column place => by
    have c : ReadAt n _ _ column := column.readAt
    have p : OptionalAt n _ _ place := .of_optional ColumnPlace.readAt place
    refine readAt_composedAction (fun _ _ => rfl) (by simp)
      (by simp [plainFields, c.plain, p.plain]) fun h => ?_
    simp [composedAction, fields?, h.field? "if_not_exists" (by simp) (.bool ifNotExists),
      h.field? "column" (by simp) c, h.optionalField? "position" (by simp) p]
  | .dropColumn ifExists name => by
    refine readAt_composedAction (fun _ _ => rfl) (by simp) (by simp [plainFields]) fun h => ?_
    simp [composedAction, fields?, h.field? "if_exists" (by simp) (.bool ifExists),
      h.field? "name" (by simp) (.string name)]
  | .modifyColumn ifExists column => by
    have c : ReadAt n _ _ column := column.readAt
    refine readAt_composedAction (fun _ _ => rfl) (by simp) (by simp [plainFields, c.plain])
      fun h => ?_
    simp [composedAction, fields?, h.field? "if_exists" (by simp) (.bool ifExists),
      h.field? "column" (by simp) c]
  | .renameColumn ifExists source target => by
    refine readAt_composedAction (fun _ _ => rfl) (by simp) (by simp [plainFields]) fun h => ?_
    simp [composedAction, fields?, h.field? "if_exists" (by simp) (.bool ifExists),
      h.field? "from" (by simp) (.string source), h.field? "to" (by simp) (.string target)]
  | .commentColumn ifExists name comment => by
    refine readAt_composedAction (fun _ _ => rfl) (by simp) (by simp [plainFields]) fun h => ?_
    simp [composedAction, fields?, h.field? "if_exists" (by simp) (.bool ifExists),
      h.field? "name" (by simp) (.string name), h.field? "comment" (by simp) (.string comment)]
  | .addConstraint ifNotExists name check => by
    have e := check.readAt n
    refine readAt_composedAction (fun _ _ => rfl) (by simp) (by simp [plainFields, e.plain])
      fun h => ?_
    simp [composedAction, fields?, h.field? "if_not_exists" (by simp) (.bool ifNotExists),
      h.field? "name" (by simp) (.string name), h.field? "check" (by simp) e]
  | .dropConstraint ifExists name => by
    refine readAt_composedAction (fun _ _ => rfl) (by simp) (by simp [plainFields]) fun h => ?_
    simp [composedAction, fields?, h.field? "if_exists" (by simp) (.bool ifExists),
      h.field? "name" (by simp) (.string name)]
  | .renameTable name => .mono (.variant name.readAt fun h => by simp [alterAction, variant?, h])
  | .delete selection =>
    .mono (.variant (selection.readAt n) fun h => by simp [alterAction, variant?, h])
  | .update assignments selection => by
    have l : ReadAt (n + 1) _ _ assignments := Assignment.listAt assignments
    have e := selection.readAt n
    refine readAt_composedAction (fun _ _ => rfl) (by simp)
      (by simp [plainFields, l.plain, e.plain]) fun h => ?_
    simp [composedAction, fields?, h.field? "assignments" (by simp) l.mono,
      h.field? "selection" (by simp) e]

theorem AlterTable.readAt (a : AlterTable) : ReadAt n (upTo n).alterTable a.encode a := by
  have name : ReadAt n _ _ a.name := a.name.readAt
  have u : OptionalAt n _ _ a.cluster := .string a.cluster
  have l : ReadAt (n + 1) (list? (upTo n).alterAction) _ a.actions :=
    .list (.of_map AlterAction.readAt a.actions)
  refine .mono (.record (by simp) (by simp [plainFields, name.plain, u.plain, l.plain]) fun h => ?_)
  simp [alterTable, fields?, h.field? "name" (by simp) name, h.optionalField? "cluster" (by simp) u,
    h.field? "actions" (by simp) l.mono]

theorem ObjectKind.readAt (k : ObjectKind) : ReadAt n ObjectKind.decode? (.string k.name) k :=
  .choice (by cases k <;> rfl)

theorem Drop.readAt (d : Drop) : ReadAt n drop d.encode d := by
  have l : ReadAt (n + 1) (list? QualifiedName.decode?) _ d.names :=
    .list (.of_map QualifiedName.readAt d.names)
  have u : OptionalAt n _ _ d.cluster := .string d.cluster
  refine .mono (.record (by simp) (by simp [plainFields, l.plain, u.plain]) fun h => ?_)
  simp [drop, fields?, h.field? "object" (by simp) d.object.readAt,
    h.field? "if_exists" (by simp) (.bool d.ifExists), h.field? "names" (by simp) l.mono,
    h.optionalField? "cluster" (by simp) u]

theorem Truncate.readAt (t : Truncate) : ReadAt n truncate t.encode t := by
  have name : ReadAt n _ _ t.name := t.name.readAt
  have u : OptionalAt n _ _ t.cluster := .string t.cluster
  refine .mono (.record (by simp) (by simp [plainFields, name.plain, u.plain]) fun h => ?_)
  simp [truncate, fields?, h.field? "if_exists" (by simp) (.bool t.ifExists),
    h.field? "name" (by simp) name, h.optionalField? "cluster" (by simp) u]

theorem Renaming.readAt (r : Renaming) : ReadAt n newName r.encode r := by
  have s : ReadAt n _ _ r.source := r.source.readAt
  have t : ReadAt n _ _ r.target := r.target.readAt
  refine .mono (.record (by simp) (by simp [plainFields, s.plain, t.plain]) fun h => ?_)
  simp [newName, fields?, h.field? "from" (by simp) s, h.field? "to" (by simp) t]

theorem Rename.readAt (r : Rename) : ReadAt n rename r.encode r := by
  have l : ReadAt (n + 1) (list? newName) _ r.pairs := .list (.of_map Renaming.readAt r.pairs)
  have u : OptionalAt n _ _ r.cluster := .string r.cluster
  refine .mono (.record (by simp) (by simp [plainFields, l.plain, u.plain]) fun h => ?_)
  simp [rename, fields?, h.field? "pairs" (by simp) l.mono, h.optionalField? "cluster" (by simp) u]

/-! ### Sessions -/

theorem Listing.readAt : (l : Listing) → ReadAt n listing l.encode l
  | .databases => .name rfl
  | .tables database pattern => by
    have d : OptionalAt n _ _ database := .string database
    have p : OptionalAt n _ _ pattern := .string pattern
    refine .mono (.variantRecord (by simp) (by simp [plainFields, d.plain, p.plain]) fun h => ?_)
    simp [listing, variant?, fields?, h.optionalField? "from" (by simp) d,
      h.optionalField? "like" (by simp) p]
  | .createTable name => .mono (.variant name.readAt fun h => by simp [listing, variant?, h])

theorem Optimize.readAt (o : Optimize) : ReadAt n optimize o.encode o := by
  have t : ReadAt n _ _ o.table := o.table.readAt
  have u : OptionalAt n _ _ o.cluster := .string o.cluster
  refine .mono (.record (by simp) (by simp [plainFields, t.plain, u.plain]) fun h => ?_)
  simp [optimize, fields?, h.field? "table" (by simp) t, h.optionalField? "cluster" (by simp) u,
    h.field? "final_merge" (by simp) (.bool o.final)]

theorem ExplainStage.optionalAt (s : Option ExplainStage) :
    OptionalAt n ExplainStage.decode? (.optionalString (s.map ExplainStage.name)) s :=
  .choice (fun s => by cases s <;> rfl) s

/-- A statement is found in its JSON value, and in what is left of it without fields that are `null`. -/
theorem Statement.readAt : (s : Statement) → (n : Nat) → ReadAt n (upTo n).statement s.encode s
  | .select q, n => readAt_statement (fun n =>
      .variant (q.readAt n) fun h => by simp [statementRule, variant?, h]) n
  | .insert i, n => readAt_statement (fun n =>
      .variant (Insert.readAt i) fun h => by simp [statementRule, variant?, h]) n
  | .update u, n => readAt_statement (fun n =>
      .variant u.readAt fun h => by simp [statementRule, variant?, h]) n
  | .delete d, n => readAt_statement (fun n =>
      .variant d.readAt fun h => by simp [statementRule, variant?, h]) n
  | .createTable c, n => readAt_statement (fun n =>
      .variant c.readAt fun h => by simp [statementRule, variant?, h]) n
  | .createView c, n => readAt_statement (fun n =>
      .variant c.readAt fun h => by simp [statementRule, variant?, h]) n
  | .createIndex c, n => readAt_statement (fun n =>
      .variant c.readAt fun h => by simp [statementRule, variant?, h]) n
  | .createDatabase c, n => readAt_statement (fun n =>
      .variant c.readAt fun h => by simp [statementRule, variant?, h]) n
  | .alterTable a, n => readAt_statement (fun n =>
      .variant a.readAt fun h => by simp [statementRule, variant?, h]) n
  | .drop d, n => readAt_statement (fun n =>
      .variant d.readAt fun h => by simp [statementRule, variant?, h]) n
  | .truncate t, n => readAt_statement (fun n =>
      .variant t.readAt fun h => by simp [statementRule, variant?, h]) n
  | .rename r, n => readAt_statement (fun n =>
      .variant r.readAt fun h => by simp [statementRule, variant?, h]) n
  | .useDatabase name, n => readAt_statement (fun n =>
      .variant (.string name) fun h => by simp [statementRule, sessionStatement, variant?, h]) n
  | .changeSettings settings, n => readAt_statement (fun n =>
      .variant (Setting.listAt settings).mono fun h => by
        simp [statementRule, sessionStatement, variant?, h]) n
  | .listing l, n => readAt_statement (fun n =>
      .variant l.readAt fun h => by simp [statementRule, sessionStatement, variant?, h]) n
  | .describe table, n => readAt_statement (fun n =>
      .variant table.readAt fun h => by simp [statementRule, sessionStatement, variant?, h]) n
  | .explain stage statement, n => readAt_statement (fun n => by
      have k : OptionalAt n _ _ stage := ExplainStage.optionalAt stage
      have s := statement.readAt n
      refine .variantRecord (by simp) (by simp [plainFields, k.plain, s.plain]) fun h => ?_
      simp [statementRule, sessionStatement, TreeReader.explain, variant?, fields?,
        h.optionalField? "kind" (by simp) k, h.field? "statement" (by simp) s]) n
  | .optimize o, n => readAt_statement (fun n =>
      .variant o.readAt fun h => by simp [statementRule, sessionStatement, variant?, h]) n
  | .begin, n | .commit, n | .rollback, n => readAt_statement (fun _ => .name rfl) n

end CanonicalSql
