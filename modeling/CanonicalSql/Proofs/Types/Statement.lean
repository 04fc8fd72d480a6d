import CanonicalSql.Proofs.Course.Document
import CanonicalSql.Proofs.Types.Query

/-! The types in statements are those that the rule for types gives, and with that the types in documents
are nested no deeper than parentheses are opened. -/

namespace CanonicalSql

open Keyword Word CanonicalSql.Symbol

namespace Grammar

open Parse

variable {g : Grammar} {n : ℕ}

namespace Keeps

/-! ### Changes of data -/

theorem rows {row : Parse (List Expr)} {Q : List Expr → Prop} (h : row.Keeps n Q) (count : ℕ) :
    (Grammar.rows row count).Keeps n fun rows => ∀ row ∈ rows, Q row := by
  induction count with
  | zero => exact .pure (by simp)
  | succ count ih =>
    have more : (do
        let first ← row
        let others ← Grammar.rows row count
        return first :: others : Parse (List (List Expr))).Keeps n fun rows => ∀ row ∈ rows, Q row :=
      .bind h fun _ h1 => .bind ih fun _ h2 => .pure (List.forall_mem_cons.2 ⟨h1, h2⟩)
    exact .past (sound_accept _) fun _ => .sees fun _ => .ite more (.pure (by simp))

theorem row (hg : g.Keeps) : g.row.Keeps n fun es => ∀ e ∈ es, Shallow n e.types :=
  hg.anyExpr.commaList.between

theorem insertSource (hg : g.Keeps) : g.insertSource.Keeps n fun source => Shallow n source.types := by
  refine .accept (.bind hg.row fun _ h1 => .remaining fun count => .bind (rows hg.row count) fun _ h2 =>
    .pure ?_) (.peek fun _ => .sees fun _ => .ite (.bind hg.query fun _ h => .pure h) .fail)
  simpa [InsertSource.types] using ⟨h1, h2⟩

theorem insert (hg : g.Keeps) : g.insert.Keeps n fun i => Shallow n i.source.types := by
  refine .expect (.expect (.discard_accept (.past sound_qualifiedName fun _ => .peekAt fun _ => .ite ?_ ?_)))
  · exact .bind (x := Pure.pure []) (Q := fun _ => True) (.pure trivial) fun _ _ =>
      .bind hg.insertSource fun _ h => .pure h
  · exact .past sound_optionalNameList fun _ => .bind hg.insertSource fun _ h => .pure h

theorem assignment (hg : g.Keeps) : g.assignment.Keeps n fun a => Shallow n a.types :=
  .past sound_identifier fun _ => .expect (.bind hg.anyExpr fun _ h => .pure h)

theorem update (hg : g.Keeps) : g.update.Keeps n fun u => Shallow n u.types := by
  refine .expect (.past sound_qualifiedName fun _ => .past sound_aliasName fun _ => .expect
    (.bind hg.assignment.commaList fun _ h1 => .bind (.optional hg.anyExpr) fun _ h2 => .pure ?_))
  simpa [Update.types] using ⟨h1, h2⟩

theorem delete (hg : g.Keeps) : g.delete.Keeps n fun d => Shallow n (typesIn Expr.types d.selection) := by
  refine .expect (.expect (.past sound_qualifiedName fun _ => .past sound_onCluster fun _ =>
    .bind (.optional hg.anyExpr) fun _ h => .pure ?_))
  simpa using h

/-! ### Definitions -/

theorem columnOption (hg : g.Keeps) :
    g.columnOption.Keeps n fun o => ∀ option ∈ o, Shallow n option.types := by
  have fixed : ∀ {option : ColumnOption}, option.types = [] →
      (Pure.pure (some option) : Parse (Option ColumnOption)).Keeps n
        fun o => ∀ option ∈ o, Shallow n option.types :=
    fun none => .pure (by simp [none])
  have value : ∀ {option : Expr → ColumnOption}, (∀ e, (option e).types = e.types) →
      (do return some (option (← g.anyExpr)) : Parse (Option ColumnOption)).Keeps n
        fun o => ∀ option ∈ o, Shallow n option.types :=
    fun same => .bind hg.anyExpr fun _ h => .pure (by simpa [same] using h)
  refine .accept (fixed rfl) (.accept (.expect (fixed rfl)) (.accept (value fun _ => rfl)
    (.accept (value fun _ => rfl) (.accept (value fun _ => rfl) (.accept (.expect (fixed rfl))
    (.accept (fixed rfl) (.accept (value fun _ => rfl) (.accept ?_ ?_))))))))
  · exact .past (yields_stringLiteral _) fun _ => fixed rfl
  · exact .sees fun _ => .ite (.past sound_foreignReference fun _ => fixed rfl) (.pure (by simp))

theorem columnOptions (hg : g.Keeps) (count : ℕ) :
    (g.columnOptions count).Keeps n fun options => ∀ option ∈ options, Shallow n option.types := by
  induction count with
  | zero => exact .pure (by simp)
  | succ count ih =>
    refine .bind hg.columnOption fun option h1 => ?_
    cases option with
    | none => exact .pure (by simp)
    | some option => exact .bind ih fun _ h2 => .pure (List.forall_mem_cons.2 ⟨h1 option rfl, h2⟩)

theorem columnDefinition (hg : g.Keeps) (beforePlace : Bool) :
    (g.columnDefinition beforePlace).Keeps n fun c => Shallow n c.types := by
  have options : ∀ (name : String) (type : Option DataType), (∀ t ∈ type, t.nesting ≤ n) →
      (do return ⟨name, type, ← g.columnOptions (← remaining)⟩ : Parse ColumnDefinition).Keeps n
        fun c => Shallow n c.types := by
    refine fun name type h1 => .remaining fun count => .bind (hg.columnOptions count) fun _ h2 => .pure ?_
    cases type <;> simp_all [ColumnDefinition.types]
  refine .past sound_identifier fun name => .peek fun _ => .ite ?_ ?_
  · exact .bind (x := some <$> g.dataType) (.map (hg.dataType.mono fun _ h => by simpa using h))
      fun type h => options name type h
  · exact .bind (x := Pure.pure none) (.pure (by simp)) fun type h => options name type h

theorem constraintKind (hg : g.Keeps) (name : Option String) :
    g.constraintKind.Keeps n fun kind => Shallow n (TableElement.constraint ⟨name, kind⟩).types := by
  refine .accept (.expect (.past sound_nameList fun _ => .pure shallow_nil))
    (.accept (.past sound_nameList fun _ => .pure shallow_nil) (.accept ?_ (.accept ?_ .fail)))
  · exact .bind hg.anyExpr fun _ h => .pure h
  · exact .expect (.past sound_nameList fun _ => .past sound_foreignReference fun _ => .pure shallow_nil)

theorem tableElement (hg : g.Keeps) : g.tableElement.Keeps n fun element => Shallow n element.types := by
  refine .peek fun _ => .ite (.bind (Q := fun c => Shallow n (TableElement.constraint c).types) ?_
    fun _ h => .pure h) (.bind (hg.columnDefinition false) fun _ h => .pure h)
  exact .past (Parse.Sound.optional _ sound_identifier) fun name =>
    .bind (hg.constraintKind name) fun _ h => .pure h

theorem engine (hg : g.Keeps) : g.engine.Keeps n fun engine => Shallow n engine.types := by
  refine .discard_accept (.past (sound_label _) fun _ => .bind
    (.optional (.bind hg.anyExpr.commaListUpTo fun _ h => .expect (.pure h))) fun _ h => .pure ?_)
  simpa [Engine.types] using h

theorem tableElements (hg : g.Keeps) :
    g.tableElements.Keeps n fun elements => ∀ element ∈ elements, Shallow n element.types :=
  .optionalList (.bind hg.tableElement.commaList fun _ h => .expect (.pure h))

/-- The clauses of a new table from behind its partitions. -/
theorem tableBehind (hg : g.Keeps) {orReplace temporary ifNotExists : Bool} {name : QualifiedName}
    {cluster : Option String} {elements : List TableElement} {engine : Option Engine}
    {partitionBy : Option Expr} (h1 : ∀ element ∈ elements, Shallow n element.types)
    (h2 : ∀ e ∈ engine, Shallow n e.types) (h3 : ∀ e ∈ partitionBy, Shallow n e.types) :
    (do
      let primaryKey ← Parse.optional PRIMARY do
        expect KEY
        g.anyExpr
      let orderBy ← Parse.optional ORDER do
        expect BY
        g.anyExpr
      let settings ← optionalList SETTINGS (commaList g.setting)
      let comment ← Parse.optional COMMENT (stringLiteral .comment)
      let query ← Parse.optional AS g.query
      if elements.isEmpty && query.isNone then Parse.fail .tableContents
      return {
        orReplace, temporary, ifNotExists, name, cluster, elements, engine, partitionBy, primaryKey
        orderBy, settings, comment, query } : Parse CreateTable).Keeps n fun c => Shallow n c.types := by
  refine .bind (.optional (.expect hg.anyExpr)) fun _ h4 =>
    .bind (.optional (.expect hg.anyExpr)) fun _ h5 => .bind (.optionalList hg.setting.commaList) fun _ h6 =>
    .past (yields_optionalString _ _) fun _ => .bind (.optional hg.query) fun _ h7 => .ite
    (.bind (Q := fun _ => False) .fail fun _ no => no.elim) (.pure ?_)
  simpa [CreateTable.types] using ⟨h1, h2, h3, h4, h5, h6, h7⟩

theorem createTable (hg : g.Keeps) (orReplace temporary : Bool) :
    (g.createTable orReplace temporary).Keeps n fun c => Shallow n c.types := by
  refine .past sound_ifNotExists fun _ => .past sound_qualifiedName fun _ => .past sound_onCluster fun _ =>
    .bind hg.tableElements fun _ h1 => .bind (.optional hg.engine) fun _ h2 =>
    .past (sound_acceptAll _) fun _ => .ite ?_ ?_
  · exact .bind (x := some <$> g.anyExpr) (.map (hg.anyExpr.mono fun _ h => by simpa using h))
      fun _ h3 => hg.tableBehind h1 h2 h3
  · exact .bind (x := Pure.pure none) (.pure (by simp)) fun _ h3 => hg.tableBehind h1 h2 h3

theorem createView (hg : g.Keeps) (orReplace materialized : Bool) :
    (g.createView orReplace materialized).Keeps n fun c => Shallow n c.query.types :=
  .past sound_ifNotExists fun _ => .past sound_qualifiedName fun _ => .past sound_onCluster fun _ =>
    .past (Parse.Sound.optional _ sound_qualifiedName) fun _ => .past sound_optionalNameList fun _ =>
    .expect (.bind hg.query fun _ h => .pure h)

theorem createIndex (hg : g.Keeps) (unique : Bool) :
    (g.createIndex unique).Keeps n fun c => ∀ column ∈ c.columns, Shallow n column.expr.types :=
  .past sound_ifNotExists fun _ => .past sound_identifier fun _ => .expect (.past sound_qualifiedName
    fun _ => .bind (Keeps.between (.commaList (.bind hg.anyExpr fun _ h => .past sound_sortDirection
    fun _ => .pure h))) fun _ h => .pure h)

theorem createDatabase (hg : g.Keeps) :
    g.createDatabase.Keeps n fun c => Shallow n (typesIn Engine.types c.engine) :=
  .past sound_ifNotExists fun _ => .past sound_identifier fun _ => .past sound_onCluster fun _ =>
    .bind (.optional hg.engine) fun _ h => .pure (by simpa using h)

theorem create (hg : g.Keeps) : g.create.Keeps n fun s => Shallow n s.types := by
  have table : ∀ orReplace temporary : Bool,
      (do return .createTable (← g.createTable orReplace temporary) : Parse Statement).Keeps n
        fun s => Shallow n s.types :=
    fun orReplace temporary => .bind (hg.createTable orReplace temporary) fun _ h => .pure h
  have view : ∀ orReplace materialized : Bool,
      (do return .createView (← g.createView orReplace materialized) : Parse Statement).Keeps n
        fun s => Shallow n s.types :=
    fun orReplace materialized => .bind (hg.createView orReplace materialized) fun _ h => .pure h
  have index : ∀ unique : Bool, (do return .createIndex (← g.createIndex unique) :
      Parse Statement).Keeps n fun s => Shallow n s.types :=
    fun unique => .bind (hg.createIndex unique) fun _ h => .pure (shallow_flatMap.2 h)
  refine .expect (.past (sound_acceptAll _) fun orReplace => .accept (.expect (table _ _))
    (.accept (table _ _) (.accept (.expect (view _ _)) (.accept (view _ _) ?_))))
  cases orReplace with
  | true => exact .fail
  | false =>
    exact .accept (.expect (index _)) (.accept (index _) (.accept
      (.bind hg.createDatabase fun _ h => .pure h) .fail))

/-! ### Alterations -/

theorem alterAction (hg : g.Keeps) : g.alterAction.Keeps n fun action => Shallow n action.types := by
  have addition : g.addition.Keeps n fun action => Shallow n action.types :=
    .accept (.past sound_ifNotExists fun _ => .bind (hg.columnDefinition true) fun _ h =>
      .past sound_columnPlace fun _ => .pure h) (.accept (.past sound_ifNotExists fun _ =>
      .past sound_identifier fun _ => .expect (.bind hg.anyExpr fun _ h => .pure h)) .fail)
  have removal : removal.Keeps n fun action => Shallow n action.types :=
    .accept (.past sound_ifExists fun _ => .past sound_identifier fun _ => .pure shallow_nil)
      (.accept (.past sound_ifExists fun _ => .past sound_identifier fun _ => .pure shallow_nil) .fail)
  have renamedPart : renamedPart.Keeps n fun action => Shallow n action.types :=
    .accept (.past sound_qualifiedName fun _ => .pure shallow_nil) (.expect (.past sound_ifExists fun _ =>
      .past sound_identifier fun _ => .expect (.past sound_identifier fun _ => .pure shallow_nil)))
  refine .accept addition (.accept removal (.accept (.expect ?_) (.accept renamedPart
    (.accept (.expect ?_) (.accept (.expect ?_) (.accept ?_ .fail))))))
  · exact .past sound_ifExists fun _ => .bind (hg.columnDefinition false) fun _ h => .pure h
  · exact .past sound_ifExists fun _ => .past sound_identifier fun _ =>
      .past (yields_stringLiteral _) fun _ => .pure shallow_nil
  · exact .bind hg.anyExpr fun _ h => .pure h
  · refine .bind hg.assignment.commaList fun _ h1 => .expect (.bind hg.anyExpr fun _ h2 => .pure ?_)
    simpa [AlterAction.types] using ⟨h1, h2⟩

theorem alterTable (hg : g.Keeps) :
    g.alterTable.Keeps n fun a => ∀ action ∈ a.actions, Shallow n action.types :=
  .expect (.expect (.past sound_qualifiedName fun _ => .past sound_onCluster fun _ =>
    .bind hg.alterAction.commaList fun _ h => .pure h))

/-! ### Statements -/

theorem changeSettings (hg : g.Keeps) : g.changeSettings.Keeps n fun s => Shallow n s.types :=
  .expect (.bind hg.setting.commaList fun _ h => .pure (shallow_flatMap.2 h))

theorem explain (hg : g.Keeps) : g.explain.Keeps n fun s => Shallow n s.types :=
  .expect (.past sound_explainStage fun _ => .bind hg.statement.descend fun _ h => .pure h)

theorem describe : Grammar.describe.Keeps n fun s => Shallow n s.types := by
  have table : (do
      discard (accept TABLE)
      return .describe (← qualifiedName) : Parse Statement).Keeps n fun s => Shallow n s.types :=
    .discard_accept (.past sound_qualifiedName fun _ => .pure shallow_nil)
  exact .accept table (.expect table)

theorem wordStatement (hg : g.Keeps) (w : Word) :
    (g.wordStatement w).Keeps n fun s => Shallow n s.types := by
  have transaction : ∀ {statement : Statement}, statement.types = [] →
      (transaction statement).Keeps n fun s => Shallow n s.types :=
    fun none => .discard_advance (.discard_accept (.pure (by rw [none]; exact shallow_nil)))
  unfold Grammar.wordStatement
  split
  · exact .past sound_truncate fun _ => .pure shallow_nil
  · exact .past sound_rename fun _ => .pure shallow_nil
  · exact .expect (.past sound_identifier fun _ => .pure shallow_nil)
  · exact .past sound_listing fun _ => .pure shallow_nil
  · exact describe
  · exact hg.explain
  · exact .past sound_optimize fun _ => .pure shallow_nil
  · exact transaction rfl
  · exact transaction rfl
  · exact transaction rfl
  · exact .fail

theorem statementRule (hg : g.Keeps) : g.statementRule.Keeps n fun s => Shallow n s.types := by
  refine .peek fun k => ?_
  split
  · exact .bind hg.queryRule fun _ h => .pure h
  · exact .bind hg.queryRule fun _ h => .pure h
  · exact .bind hg.queryRule fun _ h => .pure h
  · exact .bind hg.insert fun _ h => .pure h
  · exact .bind hg.update fun _ h => .pure h
  · exact .bind hg.delete fun _ h => .pure h
  · exact hg.create
  · exact .bind hg.alterTable fun _ h => .pure (shallow_flatMap.2 h)
  · exact .past sound_drop fun _ => .pure shallow_nil
  · exact hg.changeSettings
  · exact describe
  · split
    · exact hg.wordStatement _
    · exact .fail
  · exact .fail

end Keeps

/-! ### The grammar -/

theorem keeps_upTo (count : ℕ) : (upTo count).Keeps := by
  induction count with
  | zero =>
    exact {
      expr := fun _ => .fail
      query := .fail
      body := fun _ => .fail
      dataType := .fail
      statement := .fail }
  | succ count ih =>
    exact {
      expr := ih.exprRule
      query := ih.queryRule
      body := ih.bodyRule
      dataType := ih.dataTypeRule
      statement := ih.statementRule }

end Grammar

/-! ### Documents -/

namespace Parse

variable {n : ℕ}

theorem keeps_statement : Parse.statement.Keeps n fun s => Shallow n s.types :=
  .remaining fun _ => (Grammar.keeps_upTo _).statement

theorem keeps_statementsWithin (count : ℕ) :
    (statementsWithin count).Keeps n fun ss => ∀ s ∈ ss, Shallow n s.types := by
  induction count with
  | zero => exact .pure (by simp)
  | succ count ih =>
    have others : ∀ {first : Statement}, Shallow n first.types →
        (do return first :: (← statementsWithin count) : Parse (List Statement)).Keeps n
          fun ss => ∀ s ∈ ss, Shallow n s.types :=
      fun h1 => .bind ih fun _ h2 => .pure (List.forall_mem_cons.2 ⟨h1, h2⟩)
    refine .remaining fun _ => .past (sound_skipSemicolons _) fun _ => .atEnd fun _ =>
      .ite (.pure (by simp)) (.bind keeps_statement fun _ h1 => .past (sound_accept _) fun _ =>
      .atEnd fun _ => .ite (others h1) (.bind (Q := fun _ => False) .fail fun _ no => no.elim))

theorem keeps_statements : statements.Keeps n fun ss => ∀ s ∈ ss, Shallow n s.types :=
  .remaining fun _ => keeps_statementsWithin _

end Parse

variable {text : String} {tokens : List Token} {limit : ℕ} {statements : List Statement}

/-- No type anywhere in a document is nested deeper than the document opens parentheses. -/
theorem shallow_of_parseDocument (lexed : tokenize text = .ok tokens)
    (h : parseDocument text limit = .ok statements) :
    ∀ statement ∈ statements, Shallow (openings tokens) statement.types := by
  have within : (Parser.ofTokens tokens limit).cursor.Within (openings tokens) := by
    have ready := ready_ofTokens lexed limit
    refine ⟨⟨ready.genuine, ready.ended, False.elim⟩, ?_⟩
    rw [upcoming_ofTokens lexed]
  simp only [parseDocument, Parse.ofText, lexed] at h
  obtain ⟨q, run⟩ := Parse.exists_of_outcome h
  exact (Parse.keeps_statements _ _ _ within run).2

end CanonicalSql
