import CanonicalSql.Parser.Definition
import CanonicalSql.Proofs.Course.Change

/-! What the rules for definitions, alterations and removals of objects give. -/

namespace CanonicalSql

open Keyword Word CanonicalSql.Symbol

instance : Construct ForeignReference := .silent _
instance : Construct ColumnPlace := .silent _
instance : Construct ObjectKind := .silent _
instance : Construct Renaming := .silent _
instance : Construct ColumnOption :=
  .ofPieces ColumnOption.WellFormed ColumnOption.depth ColumnOption.pieces
instance : Construct ColumnDefinition :=
  .ofPieces ColumnDefinition.WellFormed ColumnDefinition.depth ColumnDefinition.pieces
instance : Construct ConstraintKind :=
  .ofPieces ConstraintKind.WellFormed ConstraintKind.depth ConstraintKind.pieces
instance : Construct TableConstraint :=
  .ofPieces (fun c => c.kind.WellFormed) (fun c => c.kind.depth) TableConstraint.pieces
instance : Construct TableElement :=
  .ofPieces TableElement.WellFormed TableElement.depth TableElement.pieces
instance : Construct Engine := .ofPieces Engine.WellFormed Engine.depth Engine.pieces
instance : Construct CreateTable :=
  .ofPieces CreateTable.WellFormed CreateTable.depth CreateTable.pieces
instance : Construct CreateView :=
  .ofPieces (fun c => c.query.WellFormed) (fun c => c.query.depth) CreateView.pieces
instance : Construct IndexColumn :=
  .ofPieces (fun c => c.expr.WellFormed) (fun c => c.expr.depth) IndexColumn.pieces
instance : Construct CreateIndex :=
  .ofPieces (fun c => c.columns ≠ [] ∧ ∀ column ∈ c.columns, column.expr.WellFormed)
    (fun c => deepest (fun column => column.expr.depth) c.columns) CreateIndex.pieces
instance : Construct CreateDatabase :=
  .ofPieces (fun c => ∀ engine ∈ c.engine, engine.WellFormed)
    (fun c => depthIn Engine.depth c.engine) CreateDatabase.pieces
instance : Construct AlterAction :=
  .ofPieces AlterAction.WellFormed AlterAction.depth AlterAction.pieces
instance : Construct AlterTable :=
  .ofPieces (fun a => a.actions ≠ [] ∧ ∀ action ∈ a.actions, action.WellFormed)
    (fun a => deepest AlterAction.depth a.actions) AlterTable.pieces
instance : Construct Drop := .ofPieces (fun d => d.names ≠ []) (fun _ => 0) Drop.pieces
instance : Construct Truncate := .ofPieces (fun _ => True) (fun _ => 0) Truncate.pieces
instance : Construct Rename := .ofPieces (fun r => r.pairs ≠ []) (fun _ => 0) Rename.pieces

section

@[simp] theorem literals_ifNotExists (present : Bool) :
    Piece.literals (ifNotExistsPieces present) = [] := by
  cases present <;> rfl

@[simp] theorem literals_ifExists (present : Bool) :
    Piece.literals (ifExistsPieces present) = [] := by
  cases present <;> rfl

@[simp] theorem literals_foreignReference (r : ForeignReference) :
    Piece.literals r.pieces = [] := by
  simp [ForeignReference.pieces]

@[simp] theorem literals_columnPlace (o : Option ColumnPlace) :
    Piece.literals (ColumnPlace.clause o) = [] := by
  rcases o with _ | _ | _ <;> simp [ColumnPlace.clause]

@[simp] theorem literals_check (condition : Expr) :
    Piece.literals (checkPieces condition) = Piece.literals condition.pieces := by
  simp [checkPieces]

@[simp] theorem literals_engineClause (o : Option Engine) :
    Piece.literals (engineClause o) = literalsIn Construct.literals o := by
  cases o <;> simp [engineClause, Construct.literals]

@[simp] theorem literals_storageClause {head : List Piece} (h : Piece.literals head = [])
    (o : Option Expr) :
    Piece.literals (storageClause head o) = literalsIn Construct.literals o := by
  cases o <;> simp [storageClause, Construct.literals, h]

@[simp] theorem literals_columnOptions (options : List ColumnOption) :
    Piece.literals (options.flatMap fun option => .space :: option.pieces) =
      options.flatMap fun option => Piece.literals option.pieces := by
  induction options with
  | nil => rfl
  | cons option options ih => simp [ih]

theorem literals_createTable (c : CreateTable) :
    Piece.literals c.pieces =
      c.elements.flatMap (fun element => Piece.literals element.pieces) ++
        (literalsIn (fun engine => Piece.literals engine.pieces) c.engine ++
          (literalsIn (fun e => Piece.literals e.pieces) c.partitionBy ++
            (literalsIn (fun e => Piece.literals e.pieces) c.primaryKey ++
              (literalsIn (fun e => Piece.literals e.pieces) c.orderBy ++
                (c.settings.flatMap (fun setting => Piece.literals setting.pieces) ++
                  (literalsIn (fun v => [.string v]) c.comment ++
                    literalsIn (fun q => Piece.literals q.pieces) c.query)))))) := by
  obtain ⟨_, _, _, _, _, elements, _, _, _, _, _, comment, query⟩ := c
  unfold CreateTable.pieces
  simp only [Piece.literals_append, List.append_assoc]
  cases elements <;> cases comment <;> cases query <;>
    simp [List.flatMap_map, Construct.literals]

@[simp] theorem literals_objectKind (kind : ObjectKind) (ps : List Piece) :
    Piece.literals (kind.piece :: ps) = Piece.literals ps := by
  cases kind <;> simp [ObjectKind.piece]

@[simp] theorem literals_renamings (pairs : List Renaming) :
    pairs.flatMap (fun pair => Piece.literals pair.pieces) = [] := by
  simp [Renaming.pieces]

end

namespace Grammar

open Parse

variable {plain : Prop} {g : Grammar}

/-! ### Columns and constraints -/

theorem sound_foreignReference : foreignReference.Sound plain := by
  refine .expect (.bind sound_qualifiedName fun _ _ table h1 => ?_)
  refine .last (sound_optionalNameList.mono fun _ _ columns h2 => ?_)
  refine (h1.and h2).into (fun _ => trivial) (Nat.zero_le _) ?_
  simp [Construct.literals]

/-- What an expression is put into. -/
theorem Sound.holding (hg : g.Sound plain) {α : Type} [Construct α] (f : Expr → α)
    (wellFormed : ∀ e, e.WellFormed → Construct.WellFormed (f e))
    (shallow : ∀ e, Construct.depth (f e) ≤ e.depth)
    (literals : ∀ e, Construct.literals (f e) = Piece.literals e.pieces) :
    (do return f (← g.anyExpr) : Parse α).Sound plain :=
  .last (hg.anyExpr.mono fun _ _ e h => h.into (wellFormed e) (shallow e) (literals e))

theorem Sound.columnOption (hg : g.Sound plain) : g.columnOption.Sound plain := by
  have fixed : ∀ option : ColumnOption, option.WellFormed → option.depth = 0 →
      Piece.literals option.pieces = [] →
      (Pure.pure (some option) : Parse (Option ColumnOption)).Sound plain :=
    fun _ wf depth literals => .pure (holds_silent wf depth literals)
  have holding : ∀ f : Expr → ColumnOption, (∀ e, e.WellFormed → (f e).WellFormed) →
      (∀ e, (f e).depth = e.depth) →
      (∀ e, Piece.literals (f e).pieces = Piece.literals e.pieces) →
      (do return some (f (← g.anyExpr)) : Parse (Option ColumnOption)).Sound plain :=
    fun f wf depth literals => hg.holding (fun e => some (f e)) wf (fun e => (depth e).le) literals
  refine .accept (fixed .null trivial rfl rfl) (.accept (.expect (fixed .notNull trivial rfl rfl)) ?_)
  refine .accept (holding .default (fun _ => id) (fun _ => rfl) fun e => ?_) ?_
  · simp [ColumnOption.pieces]
  refine .accept (holding .materialized (fun _ => id) (fun _ => rfl) fun e => ?_) ?_
  · simp [ColumnOption.pieces]
  refine .accept (holding .computed (fun _ => id) (fun _ => rfl) fun e => ?_) ?_
  · simp [ColumnOption.pieces]
  refine .accept (.expect (fixed .primaryKey trivial rfl rfl))
    (.accept (fixed .unique trivial rfl rfl) ?_)
  refine .accept (holding .check (fun _ => id) (fun _ => rfl) fun e => ?_) (.accept ?_ (.seen ?_ ?_))
  · simp [ColumnOption.pieces]
  · refine .last ((yields_stringLiteral _).mono fun _ _ value h => ?_)
    subst h
    exact ⟨trivial, Nat.zero_le _, fun _ => by simp [Construct.literals, ColumnOption.pieces]⟩
  · refine .last (sound_foreignReference.mono fun _ _ target h => h.into (fun _ => trivial) le_rfl ?_)
    simp [Construct.literals, ColumnOption.pieces]
  · exact .pure (holds_silent trivial rfl rfl)

theorem Sound.columnOptions (hg : g.Sound plain) (count : ℕ) :
    (g.columnOptions count).Sound plain := by
  induction count with
  | zero => exact .pure holds_nil
  | succ count ih =>
    refine .bind hg.columnOption fun _ _ option h1 => ?_
    cases option with
    | none =>
      refine .pure ?_
      simp only [Nat.max_zero, List.append_nil]
      exact h1.into (fun _ => by simp [Construct.WellFormed]) (Nat.zero_le _) rfl
    | some option =>
      refine .last (ih.mono fun _ _ others h2 => ?_)
      exact (h1.and h2).into (fun w => List.forall_mem_cons.2 w) le_rfl rfl

theorem Sound.columnDefinition (hg : g.Sound plain) (beforePlace : Bool) :
    (g.columnDefinition beforePlace).Sound plain := by
  have options : ∀ (name : String) (type : Option DataType) {n : ℕ} {ls : List Token.Kind},
      Holds plain (triangle n) ls type →
      (do return ⟨name, type, ← g.columnOptions (← remaining)⟩ :
        Parse ColumnDefinition).Yields plain fun m ks column =>
          Holds plain (triangle (max n m)) (ls ++ ks) column := by
    intro name type n ls h1
    refine .remaining fun count => .last ((hg.columnOptions count).mono fun _ _ options h2 => ?_)
    refine (h1.and h2).into (fun w => ⟨Construct.forall_mem w.1, w.2⟩) ?_ ?_
    · exact le_max_right _ _
    · cases type <;> simp [Construct.literals, ColumnDefinition.pieces]
  refine .bind sound_identifier fun n ls name h1 => .peek fun c => ?_
  have all : ∀ {m : ℕ} {ks : List Token.Kind} {column : ColumnDefinition},
      Holds plain (triangle m) ks column → Holds plain (triangle (max n m)) (ls ++ ks) column :=
    fun h2 => (h1.and h2).into (fun w => w.2) (le_max_right _ _) rfl
  split
  · refine Yields.here (R := fun m ks column => Holds plain (triangle (max n m)) (ls ++ ks) column)
      (.bind (x := some <$> g.dataType) (.map (hg.dataType.mono fun _ _ _ h => ?_))
        fun _ _ type h2 => (options name type h2).mono fun _ _ _ h3 => all h3)
    exact h.into id le_rfl rfl
  · refine Yields.here (R := fun m ks column => Holds plain (triangle (max n m)) (ls ++ ks) column)
      (.bind (x := Pure.pure none) (.pure ?_)
        fun _ _ type h2 => (options name type h2).mono fun _ _ _ h3 => all h3)
    exact holds_silent trivial rfl rfl

theorem Sound.constraintKind (hg : g.Sound plain) : g.constraintKind.Sound plain := by
  refine .accept (.expect (.last (yields_nameList.mono fun _ _ columns h => ?_))) (.accept ?_
    (.accept ?_ (.accept (.expect ?_) (.fail _))))
  · exact h.2.into (fun _ => h.1) (Nat.zero_le _)
      (by simp [Construct.literals, ConstraintKind.pieces])
  · exact .last (yields_nameList.mono fun _ _ columns h => h.2.into (fun _ => h.1) (Nat.zero_le _)
      (by simp [Construct.literals, ConstraintKind.pieces]))
  · exact hg.holding ConstraintKind.check (fun _ => id) (fun _ => le_rfl) fun e => by
      simp [Construct.literals, ConstraintKind.pieces]
  · refine .bind yields_nameList fun _ _ columns h1 => ?_
    refine .last (sound_foreignReference.mono fun _ _ target h2 => ?_)
    exact (h1.2.and h2).into (fun _ => h1.1) (Nat.zero_le _)
      (by simp [Construct.literals, ConstraintKind.pieces])

theorem Sound.tableConstraint (hg : g.Sound plain) : g.tableConstraint.Sound plain := by
  refine .bind (Parse.Sound.optional _ sound_identifier) fun _ _ name h1 => ?_
  refine .last (hg.constraintKind.mono fun _ _ kind h2 => ?_)
  refine (h1.and h2).into (fun w => w.2) (le_max_right _ _) ?_
  cases name <;> simp [Construct.literals, TableConstraint.pieces]

theorem Sound.tableElement (hg : g.Sound plain) : g.tableElement.Sound plain := by
  refine .peek fun c => ?_
  split
  · exact Yields.here (.last (hg.tableConstraint.mono fun _ _ _ h => h.into id le_rfl rfl))
  · exact Yields.here (.last ((hg.columnDefinition _).mono fun _ _ _ h => h.into id le_rfl rfl))

/-! ### Definitions -/

theorem Sound.engine (hg : g.Sound plain) : g.engine.Sound plain := by
  refine .discard_accept (.bind (sound_label _) fun _ _ name h1 => ?_)
  refine .last ((Parse.Sound.optional _ ?_).mono fun _ _ args h2 => ?_)
  · refine .bind (hg.anyExpr.commaListUpTo rightParen) fun _ _ args h => .expect (.pure ?_)
    simpa using h
  · refine (h1.and h2).into (fun w => Construct.forall_mem w.2) (le_max_right _ _) ?_
    cases args <;> simp [Construct.literals, Engine.pieces]

theorem Sound.tableElements (hg : g.Sound plain) : g.tableElements.Sound plain := by
  refine .optionalList _ (.bind hg.tableElement.commas fun _ _ elements h => .expect (.pure ?_))
  simpa using h

/-- A table is made of its elements, the clauses of its storage, a comment, and a query. -/
theorem holds_createTable {c : CreateTable} {n m : ℕ} {ls ks : List Token.Kind}
    (front : Holds plain (triangle n) ls
      ((c.elements, c.engine, c.partitionBy), c.primaryKey, c.orderBy, c.settings))
    (behind : Holds plain (triangle m) ks c.query)
    (contents : (c.elements.isEmpty && c.query.isNone) = false) :
    Holds plain (triangle (max n m))
      (ls ++ (literalsIn (fun v => [.string v]) c.comment ++ ks)) c where
  wellFormed := by
    obtain ⟨⟨w1, w2, w3⟩, w4, w5, w6⟩ := front.wellFormed
    refine ⟨w1, Construct.forall_mem w2, Construct.forall_mem w3, Construct.forall_mem w4,
      Construct.forall_mem w5, fun setting hs => Setting.wellFormed_iff.1 (w6 setting hs),
      Construct.forall_mem behind.wellFormed, fun none => ?_⟩
    rw [none] at contents
    simpa using contents
  shallow := by
    have deep1 := front.shallow
    have deep2 := behind.shallow
    rw [triangle_max]
    change CreateTable.depth c ≤ _
    simp only [Construct.depth] at deep1 deep2
    unfold CreateTable.depth
    omega
  literals hp := by
    have first := front.literals hp
    have last := behind.literals hp
    simp only [Construct.literals] at first last
    change _ = Piece.literals c.pieces
    rw [literals_createTable, first, last]
    simp only [List.append_assoc]

/-- The clauses of a new table from behind its partitions. -/
theorem Sound.tableBehind (hg : g.Sound plain) {orReplace temporary ifNotExists : Bool}
    {name : QualifiedName} {cluster : Option String} {elements : List TableElement}
    {engine : Option Engine} {partitionBy : Option Expr} {n : ℕ} {ls : List Token.Kind}
    (h : Holds plain (triangle n) ls (elements, engine, partitionBy)) :
    (do
      let primaryKey ← Parse.optional PRIMARY do
        expect KEY
        g.anyExpr
      let orderBy ← Parse.optional ORDER do
        expect BY
        g.anyExpr
      let settings ← optionalList SETTINGS (commaList g.setting)
      let comment ← Parse.optional COMMENT (stringLiteral .comment)
      let query ← Parse.optional AS g.query
      if elements.isEmpty && query.isNone then Parse.fail .tableContents
      return {
        orReplace, temporary, ifNotExists, name, cluster, elements, engine, partitionBy, primaryKey
        orderBy, settings, comment, query } : Parse CreateTable).Yields plain fun m ks table =>
          Holds plain (triangle (max n m)) (ls ++ ks) table := by
  refine .bind (Parse.Sound.optional _ (.expect hg.anyExpr)) fun n1 ls1 primaryKey h1 => ?_
  refine .bind (Parse.Sound.optional _ (.expect hg.anyExpr)) fun n2 ls2 orderBy h2 => ?_
  refine .bind (Parse.Sound.optionalList _ hg.setting.commas) fun n3 ls3 settings h3 => ?_
  refine .bind (yields_optionalString _ _) fun n4 ls4 comment h4 => ?_
  refine .bind (Parse.Sound.optional _ hg.someQuery) fun n5 ls5 query h5 => ?_
  split
  · exact .bind (Q := fun _ _ _ => False) (.fail _) fun _ _ _ no => no.elim
  next contents =>
  refine .pure ?_
  subst h4
  have table := holds_createTable (c := ⟨orReplace, temporary, ifNotExists, name, cluster, elements,
    engine, partitionBy, primaryKey, orderBy, settings, comment, query⟩)
    (h.and (h1.and (h2.and h3))) h5 (Bool.eq_false_of_not_eq_true contents)
  refine Holds.loosen ?_ (triangle_mono (show max (max n (max n1 (max n2 n3))) n5 ≤ _ by omega))
  simpa only [List.append_assoc, List.append_nil] using table

theorem Sound.createTable (hg : g.Sound plain) (orReplace temporary : Bool) :
    (g.createTable orReplace temporary).Sound plain := by
  have given : (some <$> g.anyExpr).Sound plain :=
    .map (hg.anyExpr.mono fun _ _ _ h => h.into id le_rfl rfl)
  have absent : (Pure.pure none : Parse (Option Expr)).Sound plain :=
    .pure (holds_silent trivial rfl rfl)
  refine .bind sound_ifNotExists fun _ _ ifNotExists h1 => ?_
  refine .bind sound_qualifiedName fun _ _ name h2 => ?_
  refine .bind sound_onCluster fun _ _ cluster h3 => ?_
  refine .bind hg.tableElements fun _ _ elements h4 => ?_
  refine .bind (Parse.Sound.optional _ hg.engine) fun _ _ engine h5 => ?_
  refine .acceptAll (.bind given fun _ _ partitionBy h6 => ?_)
    (.bind absent fun _ _ partitionBy h6 => ?_)
  all_goals
    refine (hg.tableBehind (h4.and (h5.and h6))).mono fun _ _ table h => ?_
    have all := (h1.and (h2.and h3)).and h
    simp only [max_assoc, List.append_assoc] at all
    exact all.into (fun w => w.2) (le_max_right _ _) (by simp [Construct.literals])

theorem Sound.createView (hg : g.Sound plain) (orReplace materialized : Bool) :
    (g.createView orReplace materialized).Sound plain := by
  refine .bind sound_ifNotExists fun _ _ ifNotExists h1 => ?_
  refine .bind sound_qualifiedName fun _ _ name h2 => ?_
  refine .bind sound_onCluster fun _ _ cluster h3 => ?_
  refine .bind (Parse.Sound.optional _ sound_qualifiedName) fun _ _ target h4 => ?_
  refine .bind sound_optionalNameList fun _ _ columns h5 => .expect ?_
  refine .last (hg.someQuery.mono fun _ _ q h6 => ?_)
  refine (h1.and (h2.and (h3.and (h4.and (h5.and h6))))).into (fun w => w.2.2.2.2.2) ?_ ?_
  · simp [Construct.depth]
  · cases target <;> cases orReplace <;> cases materialized <;>
      simp [Construct.literals, CreateView.pieces]

theorem Sound.createIndex (hg : g.Sound plain) (unique : Bool) :
    (g.createIndex unique).Sound plain := by
  have column : g.indexColumn.Sound plain := by
    refine .bind hg.anyExpr fun _ _ e h1 => .last (sound_sortDirection.mono fun _ _ direction h2 => ?_)
    refine (h1.and h2).into (fun w => w.1) (le_max_left _ _) ?_
    simp [Construct.literals, IndexColumn.pieces]
  refine .bind sound_ifNotExists fun _ _ ifNotExists h1 => ?_
  refine .bind sound_identifier fun _ _ name h2 => .expect ?_
  refine .bind sound_qualifiedName fun _ _ table h3 => ?_
  refine .last ((column.commaList.between _ _).mono fun _ _ columns h4 => ?_)
  refine (h1.and (h2.and (h3.and h4.2))).into (fun w => ⟨h4.1, w.2.2.2⟩) ?_ ?_
  · simp [Construct.depth]
  · cases unique <;> simp [Construct.literals, CreateIndex.pieces, List.flatMap_map]

theorem Sound.createDatabase (hg : g.Sound plain) : g.createDatabase.Sound plain := by
  refine .bind sound_ifNotExists fun _ _ ifNotExists h1 => ?_
  refine .bind sound_identifier fun _ _ name h2 => .bind sound_onCluster fun _ _ cluster h3 => ?_
  refine .last ((Parse.Sound.optional _ hg.engine).mono fun _ _ engine h4 => ?_)
  refine (h1.and (h2.and (h3.and h4))).into (fun w => Construct.forall_mem w.2.2.2) ?_ ?_
  · simp [Construct.depth]
  · simp [Construct.literals, CreateDatabase.pieces]

theorem Sound.create (hg : g.Sound plain) : g.create.Sound plain := by
  have table : ∀ orReplace temporary : Bool,
      (do return .createTable (← g.createTable orReplace temporary) : Parse Statement).Sound plain :=
    fun orReplace temporary =>
      .last ((hg.createTable orReplace temporary).mono fun _ _ _ h => h.into id le_rfl rfl)
  have view : ∀ orReplace materialized : Bool,
      (do return .createView (← g.createView orReplace materialized) :
        Parse Statement).Sound plain := fun orReplace materialized =>
      .last ((hg.createView orReplace materialized).mono fun _ _ _ h => h.into id le_rfl rfl)
  have index : ∀ unique : Bool,
      (do return .createIndex (← g.createIndex unique) : Parse Statement).Sound plain :=
    fun unique => .last ((hg.createIndex unique).mono fun _ _ _ h => h.into id le_rfl rfl)
  have database : (do return .createDatabase (← g.createDatabase) : Parse Statement).Sound plain :=
    .last (hg.createDatabase.mono fun _ _ _ h => h.into id le_rfl rfl)
  refine .expect (.bind (sound_acceptAll _) fun n ls orReplace h => ?_)
  have all : ∀ {x : Parse Statement}, x.Sound plain →
      x.Yields plain fun m ks s => Holds plain (triangle (max n m)) (ls ++ ks) s :=
    fun hx => hx.mono fun _ _ _ h' => (h.and h').into (fun w => w.2) (le_max_right _ _) rfl
  refine .accept (.expect (all (table _ _))) (.accept (all (table _ _)) (.accept
    (.expect (all (view _ _))) (.accept (all (view _ _)) ?_)))
  cases orReplace with
  | true => exact .fail _
  | false =>
    exact .accept (.expect (all (index _))) (.accept (all (index _)) (.accept (all database)
      (.fail _)))

/-! ### Alterations and removals -/

theorem sound_columnPlace : columnPlace.Sound plain := by
  refine .accept (.pure (holds_silent trivial rfl rfl)) (.accept (.last ?_)
    (.pure (holds_silent trivial rfl rfl)))
  exact sound_identifier.mono fun _ _ _ h => h.into (fun _ => trivial) (Nat.zero_le _) rfl

theorem Sound.addition (hg : g.Sound plain) : g.addition.Sound plain := by
  refine .accept ?_ (.accept ?_ (.fail _))
  · refine .bind sound_ifNotExists fun _ _ ifNotExists h1 => ?_
    refine .bind (hg.columnDefinition _) fun _ _ column h2 => ?_
    refine .last (sound_columnPlace.mono fun _ _ place h3 => ?_)
    refine (h1.and (h2.and h3)).into (fun w => w.2.1) ?_ ?_
    · simp [Construct.depth, AlterAction.depth]
    · simp [Construct.literals, AlterAction.pieces]
  · refine .bind sound_ifNotExists fun _ _ ifNotExists h1 => ?_
    refine .bind sound_identifier fun _ _ name h2 => .expect ?_
    refine .last (hg.anyExpr.mono fun _ _ check h3 => ?_)
    refine (h1.and (h2.and h3)).into (fun w => w.2.2) ?_ ?_
    · simp [Construct.depth, AlterAction.depth]
    · simp [Construct.literals, AlterAction.pieces]

theorem sound_removal : removal.Sound plain := by
  refine .accept ?_ (.accept ?_ (.fail _))
  all_goals
    refine .bind sound_ifExists fun _ _ ifExists h1 => ?_
    refine .last (sound_identifier.mono fun _ _ name h2 => ?_)
    refine (h1.and h2).into (fun _ => trivial) (Nat.zero_le _) ?_
    simp [Construct.literals, AlterAction.pieces]

theorem sound_renamedPart : renamedPart.Sound plain := by
  refine .accept (.last (sound_qualifiedName.mono fun _ _ name h => ?_)) (.expect ?_)
  · refine h.into (fun _ => trivial) (Nat.zero_le _) ?_
    simp [Construct.literals, AlterAction.pieces]
  · refine .bind sound_ifExists fun _ _ ifExists h1 => .bind sound_identifier fun _ _ source h2 => ?_
    refine .expect (.last (sound_identifier.mono fun _ _ target h3 => ?_))
    refine (h1.and (h2.and h3)).into (fun _ => trivial) (Nat.zero_le _) ?_
    simp [Construct.literals, AlterAction.pieces]

theorem Sound.alterAction (hg : g.Sound plain) : g.alterAction.Sound plain := by
  refine .accept hg.addition (.accept sound_removal (.accept (.expect ?_)
    (.accept sound_renamedPart (.accept (.expect ?_) (.accept (.expect ?_) (.accept ?_ (.fail _)))))))
  · refine .bind sound_ifExists fun _ _ ifExists h1 => ?_
    refine .last ((hg.columnDefinition _).mono fun _ _ column h2 => ?_)
    refine (h1.and h2).into (fun w => w.2) (le_max_right _ _) ?_
    simp [Construct.literals, AlterAction.pieces]
  · refine .bind sound_ifExists fun _ _ ifExists h1 => .bind sound_identifier fun _ _ name h2 => ?_
    refine .last ((yields_stringLiteral _).mono fun _ _ comment h3 => ?_)
    subst h3
    refine ⟨trivial, Nat.zero_le _, fun hp => ?_⟩
    rw [h1.literals hp, h2.literals hp]
    simp [Construct.literals, AlterAction.pieces]
  · exact hg.holding AlterAction.delete (fun _ => id) (fun _ => le_rfl) fun e => by
      simp [Construct.literals, AlterAction.pieces]
  · refine .bind hg.assignment.commaList fun _ _ assignments h1 => .expect ?_
    refine .last (hg.anyExpr.mono fun _ _ selection h2 => ?_)
    refine (h1.2.and h2).into (fun w => ⟨h1.1, w⟩) le_rfl ?_
    simp [Construct.literals, AlterAction.pieces, List.flatMap_map]

theorem Sound.alterTable (hg : g.Sound plain) : g.alterTable.Sound plain := by
  refine .expect (.expect (.bind sound_qualifiedName fun _ _ name h1 => ?_))
  refine .bind sound_onCluster fun _ _ cluster h2 => ?_
  refine .last (hg.alterAction.commaList.mono fun _ _ actions h3 => ?_)
  refine (h1.and (h2.and h3.2)).into (fun w => ⟨h3.1, w.2.2⟩) ?_ ?_
  · simp [Construct.depth]
  · simp [Construct.literals, AlterTable.pieces, List.flatMap_map]

theorem sound_droppedKind : droppedKind.Sound plain := by
  have kind : ∀ k : ObjectKind, (Pure.pure k : Parse ObjectKind).Sound plain :=
    fun _ => .pure (holds_silent trivial rfl rfl)
  exact .accept (kind _) (.accept (kind _) (.accept (kind _) (.accept (kind _) (.fail _))))

theorem sound_drop : drop.Sound plain := by
  refine .expect (.bind sound_droppedKind fun _ _ object h1 => ?_)
  refine .bind sound_ifExists fun _ _ ifExists h2 => ?_
  refine .bind sound_qualifiedName.commaList fun _ _ names h3 => ?_
  refine .last (sound_onCluster.mono fun _ _ cluster h4 => ?_)
  refine (h1.and (h2.and (h3.2.and h4))).into (fun _ => h3.1) (Nat.zero_le _) ?_
  simp [Construct.literals, Drop.pieces, List.flatMap_map]

theorem sound_truncate : truncate.Sound plain := by
  refine .expect (.discard_accept (.bind sound_ifExists fun _ _ ifExists h1 => ?_))
  refine .bind sound_qualifiedName fun _ _ name h2 => ?_
  refine .last (sound_onCluster.mono fun _ _ cluster h3 => ?_)
  refine (h1.and (h2.and h3)).into (fun _ => trivial) (Nat.zero_le _) ?_
  simp [Construct.literals, Truncate.pieces]

theorem sound_rename : rename.Sound plain := by
  have pair : newName.Sound plain := by
    refine .bind sound_qualifiedName fun _ _ source h1 => .expect ?_
    refine .last (sound_qualifiedName.mono fun _ _ target h2 => ?_)
    exact (h1.and h2).into (fun _ => trivial) (Nat.zero_le _) rfl
  refine .expect (.expect (.bind pair.commaList fun _ _ pairs h1 => ?_))
  refine .last (sound_onCluster.mono fun _ _ cluster h2 => ?_)
  refine (h1.2.and h2).into (fun _ => h1.1) (Nat.zero_le _) ?_
  simp [Construct.literals, Rename.pieces, List.flatMap_map]

end Grammar

end CanonicalSql
