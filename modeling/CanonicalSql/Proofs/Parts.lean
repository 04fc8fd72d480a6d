import CanonicalSql.Proofs.Course.Document

/-! The parts of a tree: the expressions and the bodies of queries that occur in it, wherever they are.  The
parts of a tree that is well formed are well formed themselves, and so are those of all that is read. -/

namespace CanonicalSql

/-- An expression or the body of a query. -/
inductive Part where
  | expr (e : Expr)
  | body (b : QueryBody)

/-- The parts of what an option holds. -/
def partsIn {α : Type} (parts : α → List Part) : Option α → List Part
  | none => []
  | some a => parts a

mutual

/-- The parts of an expression, itself first. -/
def Expr.parts : Expr → List Part
  | .literal value => [.expr (.literal value)]
  | .column c => [.expr (.column c)]
  | .placeholder p => [.expr (.placeholder p)]
  | .binary left op right => .expr (.binary left op right) :: (left.parts ++ right.parts)
  | .unary op operand => .expr (.unary op operand) :: operand.parts
  | .between value low high negated =>
    .expr (.between value low high negated) :: (value.parts ++ low.parts ++ high.parts)
  | .member value set negated => .expr (.member value set negated) :: (value.parts ++ set.parts)
  | .like value op pattern negated =>
    .expr (.like value op pattern negated) :: (value.parts ++ pattern.parts)
  | .isNull value negated => .expr (.isNull value negated) :: value.parts
  | .cases operand arms otherwise =>
    .expr (.cases operand arms otherwise) ::
      ((match operand with | none => [] | some e => e.parts) ++ CaseArm.allParts arms ++
        (match otherwise with | none => [] | some e => e.parts))
  | .cast value type => .expr (.cast value type) :: value.parts
  | .existence query => .expr (.existence query) :: query.parts
  | .subquery query => .expr (.subquery query) :: query.parts
  | .call call => .expr (.call call) :: call.parts
  | .tuple items => .expr (.tuple items) :: Expr.allParts items
  | .array items => .expr (.array items) :: Expr.allParts items
  | .subscript base index => .expr (.subscript base index) :: (base.parts ++ index.parts)
  | .interval value unit => .expr (.interval value unit) :: value.parts

def Expr.allParts : List Expr → List Part
  | [] => []
  | e :: es => e.parts ++ Expr.allParts es

def MemberSet.parts : MemberSet → List Part
  | .list items => Expr.allParts items
  | .query query => query.parts

def CaseArm.parts : CaseArm → List Part
  | ⟨condition, result⟩ => condition.parts ++ result.parts

def CaseArm.allParts : List CaseArm → List Part
  | [] => []
  | arm :: arms => arm.parts ++ CaseArm.allParts arms

def Call.parts : Call → List Part
  | ⟨_, args, _, window⟩ => args.parts ++ (match window with | none => [] | some w => w.parts)

def CallArgs.parts : CallArgs → List Part
  | .star => []
  | .list items => Expr.allParts items

def Window.parts : Window → List Part
  | ⟨partitionBy, orderBy, frame⟩ =>
    Expr.allParts partitionBy ++ OrderItem.allParts orderBy ++
      (match frame with | none => [] | some frame => frame.parts)

def Frame.parts : Frame → List Part
  | ⟨_, start, finish⟩ => start.parts ++ (match finish with | none => [] | some b => b.parts)

def FrameBound.parts : FrameBound → List Part
  | .preceding offset | .following offset => offset.parts
  | .unboundedPreceding | .currentRow | .unboundedFollowing => []

def OrderItem.parts : OrderItem → List Part
  | ⟨expr, _, _⟩ => expr.parts

def OrderItem.allParts : List OrderItem → List Part
  | [] => []
  | item :: items => item.parts ++ OrderItem.allParts items

def Query.parts : Query → List Part
  | ⟨tables, body, orderBy, limit, settings, _⟩ =>
    (match tables with | none => [] | some tables => tables.parts) ++ body.parts ++
      OrderItem.allParts orderBy ++ (match limit with | none => [] | some limit => limit.parts) ++
      Setting.allParts settings

/-- The parts of the body of a query, itself first. -/
def QueryBody.parts : QueryBody → List Part
  | .block block => .body (.block block) :: block.parts
  | .nested query => .body (.nested query) :: query.parts
  | .compound op quantifier left right =>
    .body (.compound op quantifier left right) :: (left.parts ++ right.parts)

def WithClause.parts : WithClause → List Part
  | ⟨_, tables⟩ => CommonTable.allParts tables

def CommonTable.parts : CommonTable → List Part
  | ⟨_, _, query⟩ => query.parts

def CommonTable.allParts : List CommonTable → List Part
  | [] => []
  | table :: tables => table.parts ++ CommonTable.allParts tables

def SelectBlock.parts : SelectBlock → List Part
  | ⟨_, items, source, selection, groupBy, having⟩ =>
    SelectItem.allParts items ++ (match source with | none => [] | some source => source.parts) ++
      (match selection with | none => [] | some e => e.parts) ++ Expr.allParts groupBy ++
      (match having with | none => [] | some e => e.parts)

def SelectItem.parts : SelectItem → List Part
  | .wildcard | .tableWildcard _ => []
  | .expr expr _ => expr.parts

def SelectItem.allParts : List SelectItem → List Part
  | [] => []
  | item :: items => item.parts ++ SelectItem.allParts items

def FromClause.parts : FromClause → List Part
  | ⟨relation, joins⟩ => relation.parts ++ Join.allParts joins

def Relation.parts : Relation → List Part
  | .table _ _ => []
  | .function _ args _ => Expr.allParts args
  | .derived query _ => query.parts

def Join.parts : Join → List Part
  | ⟨_, relation, constraint⟩ =>
    relation.parts ++ (match constraint with | none => [] | some c => c.parts)

def Join.allParts : List Join → List Part
  | [] => []
  | join :: joins => join.parts ++ Join.allParts joins

def JoinConstraint.parts : JoinConstraint → List Part
  | .on condition => condition.parts
  | .using _ => []

def Limit.parts : Limit → List Part
  | ⟨count, offset⟩ => count.parts ++ (match offset with | none => [] | some e => e.parts)

def Setting.parts : Setting → List Part
  | ⟨_, value⟩ => value.parts

def Setting.allParts : List Setting → List Part
  | [] => []
  | setting :: settings => setting.parts ++ Setting.allParts settings

end

/-! What may be missing has parts only where it is there. -/

theorem Expr.parts_cases (operand : Option Expr) (arms : List CaseArm) (otherwise : Option Expr) :
    (Expr.cases operand arms otherwise).parts = .expr (.cases operand arms otherwise) ::
      (partsIn Expr.parts operand ++ CaseArm.allParts arms ++ partsIn Expr.parts otherwise) := by
  cases operand <;> cases otherwise <;> rfl

theorem SelectBlock.parts_eq (distinct : Bool) (items : List SelectItem)
    (source : Option FromClause) (selection : Option Expr) (groupBy : List Expr)
    (having : Option Expr) :
    SelectBlock.parts ⟨distinct, items, source, selection, groupBy, having⟩ =
      SelectItem.allParts items ++ partsIn FromClause.parts source ++
        partsIn Expr.parts selection ++ Expr.allParts groupBy ++ partsIn Expr.parts having := by
  cases source <;> cases selection <;> cases having <;> rfl

theorem Query.parts_eq (tables : Option WithClause) (body : QueryBody) (orderBy : List OrderItem)
    (limit : Option Limit) (settings : List Setting) (format : Option String) :
    Query.parts ⟨tables, body, orderBy, limit, settings, format⟩ =
      partsIn WithClause.parts tables ++ body.parts ++ OrderItem.allParts orderBy ++
        partsIn Limit.parts limit ++ Setting.allParts settings := by
  cases tables <;> cases limit <;> rfl

/-! ### Parts of statements -/

def InsertSource.parts : InsertSource → List Part
  | .values rows => rows.flatMap (·.flatMap Expr.parts)
  | .query q => q.parts

def Assignment.parts (a : Assignment) : List Part := a.value.parts

def Update.parts (u : Update) : List Part :=
  u.assignments.flatMap Assignment.parts ++ partsIn Expr.parts u.selection

def ColumnOption.parts : ColumnOption → List Part
  | .default value | .materialized value | .computed value | .check value => value.parts
  | .null | .notNull | .primaryKey | .unique | .comment _ | .references _ => []

def ColumnDefinition.parts (c : ColumnDefinition) : List Part := c.options.flatMap ColumnOption.parts

def TableElement.parts : TableElement → List Part
  | .column c => c.parts
  | .constraint ⟨_, .check condition⟩ => condition.parts
  | .constraint _ => []

def Engine.parts (e : Engine) : List Part := partsIn (·.flatMap Expr.parts) e.args

def CreateTable.parts (c : CreateTable) : List Part :=
  c.elements.flatMap TableElement.parts ++ partsIn Engine.parts c.engine ++
    partsIn Expr.parts c.partitionBy ++ partsIn Expr.parts c.primaryKey ++
    partsIn Expr.parts c.orderBy ++ c.settings.flatMap Setting.parts ++ partsIn Query.parts c.query

def AlterAction.parts : AlterAction → List Part
  | .addColumn _ column _ | .modifyColumn _ column => column.parts
  | .addConstraint _ _ check => check.parts
  | .delete selection => selection.parts
  | .update assignments selection => assignments.flatMap Assignment.parts ++ selection.parts
  | .dropColumn _ _ | .renameColumn _ _ _ | .commentColumn _ _ _ | .dropConstraint _ _
  | .renameTable _ => []

/-- The parts of a statement. -/
def Statement.parts : Statement → List Part
  | .select q => q.parts
  | .insert i => i.source.parts
  | .update u => u.parts
  | .delete d => partsIn Expr.parts d.selection
  | .createTable c => c.parts
  | .createView c => c.query.parts
  | .createIndex c => c.columns.flatMap fun column => column.expr.parts
  | .createDatabase c => partsIn Engine.parts c.engine
  | .alterTable a => a.actions.flatMap AlterAction.parts
  | .changeSettings settings => settings.flatMap Setting.parts
  | .explain _ statement => statement.parts
  | .drop _ | .truncate _ | .rename _ | .useDatabase _ | .listing _ | .describe _ | .optimize _
  | .begin | .commit | .rollback => []

/-! ### Parts that are well formed -/

/-- Whether a part is well formed. -/
def Part.WellFormed : Part → Prop
  | .expr e => e.WellFormed
  | .body b => b.WellFormed

/-- Whether all of the parts are well formed. -/
def Part.AllWellFormed (ps : List Part) : Prop := ∀ p ∈ ps, p.WellFormed

section

variable {α : Type} {p : Part} {ps qs : List Part} {parts : α → List Part}

@[simp] theorem allWellFormed_nil : Part.AllWellFormed [] := List.forall_mem_nil _

@[simp] theorem allWellFormed_cons :
    Part.AllWellFormed (p :: ps) ↔ p.WellFormed ∧ Part.AllWellFormed ps :=
  List.forall_mem_cons

@[simp] theorem allWellFormed_append :
    Part.AllWellFormed (ps ++ qs) ↔ Part.AllWellFormed ps ∧ Part.AllWellFormed qs :=
  List.forall_mem_append

theorem Part.AllWellFormed.flatMap {as : List α} (h : ∀ a ∈ as, Part.AllWellFormed (parts a)) :
    Part.AllWellFormed (as.flatMap parts) := by
  intro p hp
  obtain ⟨a, ha, inside⟩ := List.mem_flatMap.1 hp
  exact h a ha p inside

theorem Part.AllWellFormed.partsIn {o : Option α} (h : ∀ a ∈ o, Part.AllWellFormed (parts a)) :
    Part.AllWellFormed (partsIn parts o) := by
  cases o with
  | none => exact allWellFormed_nil
  | some a => exact h a rfl

end

mutual

theorem Expr.allWellFormed_parts : (e : Expr) → e.WellFormed → Part.AllWellFormed e.parts
  | .literal _, h | .column _, h | .placeholder _, h => allWellFormed_cons.2 ⟨h, allWellFormed_nil⟩
  | .binary left _ right, h =>
    allWellFormed_cons.2 ⟨h, allWellFormed_append.2
      ⟨left.allWellFormed_parts h.1, right.allWellFormed_parts h.2⟩⟩
  | .unary _ operand, h => allWellFormed_cons.2 ⟨h, operand.allWellFormed_parts h⟩
  | .between value low high _, h =>
    allWellFormed_cons.2 ⟨h, allWellFormed_append.2
      ⟨allWellFormed_append.2 ⟨value.allWellFormed_parts h.1, low.allWellFormed_parts h.2.1⟩,
        high.allWellFormed_parts h.2.2⟩⟩
  | .member value set _, h =>
    allWellFormed_cons.2 ⟨h, allWellFormed_append.2
      ⟨value.allWellFormed_parts h.1, set.allWellFormed_parts h.2⟩⟩
  | .like value _ pattern _, h =>
    allWellFormed_cons.2 ⟨h, allWellFormed_append.2
      ⟨value.allWellFormed_parts h.1, pattern.allWellFormed_parts h.2⟩⟩
  | .isNull value _, h => allWellFormed_cons.2 ⟨h, value.allWellFormed_parts h⟩
  | .cases operand arms otherwise, h => by
    have hw := h
    unfold Expr.WellFormed at hw
    rw [Expr.parts_cases, allWellFormed_cons, allWellFormed_append, allWellFormed_append]
    refine ⟨h, ⟨?_, CaseArm.allWellFormed_allParts arms hw.2.2.1⟩, ?_⟩
    · cases operand with
      | none => exact allWellFormed_nil
      | some e => exact e.allWellFormed_parts hw.1
    · cases otherwise with
      | none => exact allWellFormed_nil
      | some e => exact e.allWellFormed_parts hw.2.2.2
  | .cast value _, h => allWellFormed_cons.2 ⟨h, value.allWellFormed_parts h.1⟩
  | .existence query, h => allWellFormed_cons.2 ⟨h, query.allWellFormed_parts h⟩
  | .subquery query, h => allWellFormed_cons.2 ⟨h, query.allWellFormed_parts h.1⟩
  | .call call, h => allWellFormed_cons.2 ⟨h, call.allWellFormed_parts h⟩
  | .tuple items, h => allWellFormed_cons.2 ⟨h, Expr.allWellFormed_allParts items h.2⟩
  | .array items, h => allWellFormed_cons.2 ⟨h, Expr.allWellFormed_allParts items h⟩
  | .subscript base index, h =>
    allWellFormed_cons.2 ⟨h, allWellFormed_append.2
      ⟨base.allWellFormed_parts h.1, index.allWellFormed_parts h.2⟩⟩
  | .interval value _, h => allWellFormed_cons.2 ⟨h, value.allWellFormed_parts h.1⟩

theorem Expr.allWellFormed_allParts : (es : List Expr) → Expr.AllWellFormed es →
    Part.AllWellFormed (Expr.allParts es)
  | [], _ => allWellFormed_nil
  | e :: es, h =>
    allWellFormed_append.2 ⟨e.allWellFormed_parts h.1, Expr.allWellFormed_allParts es h.2⟩

theorem MemberSet.allWellFormed_parts : (set : MemberSet) → set.WellFormed →
    Part.AllWellFormed set.parts
  | .list items, h => Expr.allWellFormed_allParts items h.2
  | .query query, h => query.allWellFormed_parts h.1

theorem CaseArm.allWellFormed_parts : (arm : CaseArm) → arm.WellFormed → Part.AllWellFormed arm.parts
  | ⟨condition, result⟩, h =>
    allWellFormed_append.2 ⟨condition.allWellFormed_parts h.1, result.allWellFormed_parts h.2⟩

theorem CaseArm.allWellFormed_allParts : (arms : List CaseArm) → CaseArm.AllWellFormed arms →
    Part.AllWellFormed (CaseArm.allParts arms)
  | [], _ => allWellFormed_nil
  | arm :: arms, h =>
    allWellFormed_append.2 ⟨arm.allWellFormed_parts h.1, CaseArm.allWellFormed_allParts arms h.2⟩

theorem Call.allWellFormed_parts : (call : Call) → call.WellFormed → Part.AllWellFormed call.parts
  | ⟨_, args, distinct, none⟩, h =>
    allWellFormed_append.2 ⟨args.allWellFormed_parts distinct h.1, allWellFormed_nil⟩
  | ⟨_, args, distinct, some window⟩, h =>
    allWellFormed_append.2 ⟨args.allWellFormed_parts distinct h.1, window.allWellFormed_parts h.2⟩

theorem CallArgs.allWellFormed_parts : (args : CallArgs) → (distinct : Bool) →
    args.WellFormed distinct → Part.AllWellFormed args.parts
  | .star, _, _ => allWellFormed_nil
  | .list items, _, h => Expr.allWellFormed_allParts items h.2

theorem Window.allWellFormed_parts : (window : Window) → window.WellFormed →
    Part.AllWellFormed window.parts
  | ⟨partitionBy, orderBy, none⟩, h =>
    allWellFormed_append.2 ⟨allWellFormed_append.2 ⟨Expr.allWellFormed_allParts partitionBy h.1,
      OrderItem.allWellFormed_allParts orderBy h.2.1⟩, allWellFormed_nil⟩
  | ⟨partitionBy, orderBy, some frame⟩, h =>
    allWellFormed_append.2 ⟨allWellFormed_append.2 ⟨Expr.allWellFormed_allParts partitionBy h.1,
      OrderItem.allWellFormed_allParts orderBy h.2.1⟩, frame.allWellFormed_parts h.2.2⟩

theorem Frame.allWellFormed_parts : (frame : Frame) → frame.WellFormed → Part.AllWellFormed frame.parts
  | ⟨_, start, none⟩, h => allWellFormed_append.2 ⟨start.allWellFormed_parts h.1, allWellFormed_nil⟩
  | ⟨_, start, some finish⟩, h =>
    allWellFormed_append.2 ⟨start.allWellFormed_parts h.1, finish.allWellFormed_parts h.2⟩

theorem FrameBound.allWellFormed_parts : (bound : FrameBound) → bound.WellFormed →
    Part.AllWellFormed bound.parts
  | .preceding offset, h | .following offset, h => offset.allWellFormed_parts h
  | .unboundedPreceding, _ | .currentRow, _ | .unboundedFollowing, _ => allWellFormed_nil

theorem OrderItem.allWellFormed_parts : (item : OrderItem) → item.WellFormed →
    Part.AllWellFormed item.parts
  | ⟨expr, _, _⟩, h => expr.allWellFormed_parts h

theorem OrderItem.allWellFormed_allParts : (items : List OrderItem) → OrderItem.AllWellFormed items →
    Part.AllWellFormed (OrderItem.allParts items)
  | [], _ => allWellFormed_nil
  | item :: items, h =>
    allWellFormed_append.2 ⟨item.allWellFormed_parts h.1, OrderItem.allWellFormed_allParts items h.2⟩

theorem Query.allWellFormed_parts : (q : Query) → q.WellFormed → Part.AllWellFormed q.parts
  | ⟨tables, body, orderBy, limit, settings, _⟩, h => by
    obtain ⟨ht, hb, ho, hl, hs⟩ := Query.wellFormed_iff.1 h
    simp only [Query.parts_eq, allWellFormed_append]
    refine ⟨⟨⟨⟨?_, body.allWellFormed_parts hb⟩,
      OrderItem.allWellFormed_allParts orderBy (OrderItem.allWellFormed_iff.2 ho)⟩, ?_⟩,
      Setting.allWellFormed_allParts settings (Setting.allWellFormed_iff.2 hs)⟩
    · cases tables with
      | none => exact allWellFormed_nil
      | some tables => exact tables.allWellFormed_parts (ht tables rfl)
    · cases limit with
      | none => exact allWellFormed_nil
      | some limit => exact limit.allWellFormed_parts (hl limit rfl)

theorem QueryBody.allWellFormed_parts : (b : QueryBody) → b.WellFormed → Part.AllWellFormed b.parts
  | .block block, h => allWellFormed_cons.2 ⟨h, block.allWellFormed_parts h⟩
  | .nested query, h => allWellFormed_cons.2 ⟨h, query.allWellFormed_parts h⟩
  | .compound _ _ left right, h =>
    allWellFormed_cons.2 ⟨h, allWellFormed_append.2
      ⟨left.allWellFormed_parts h.1, right.allWellFormed_parts h.2.1⟩⟩

theorem WithClause.allWellFormed_parts : (w : WithClause) → w.WellFormed → Part.AllWellFormed w.parts
  | ⟨_, tables⟩, h => CommonTable.allWellFormed_allParts tables h.2

theorem CommonTable.allWellFormed_parts : (t : CommonTable) → t.WellFormed → Part.AllWellFormed t.parts
  | ⟨_, _, query⟩, h => query.allWellFormed_parts h

theorem CommonTable.allWellFormed_allParts : (tables : List CommonTable) →
    CommonTable.AllWellFormed tables → Part.AllWellFormed (CommonTable.allParts tables)
  | [], _ => allWellFormed_nil
  | table :: tables, h =>
    allWellFormed_append.2 ⟨table.allWellFormed_parts h.1, CommonTable.allWellFormed_allParts tables h.2⟩

theorem SelectBlock.allWellFormed_parts : (block : SelectBlock) → block.WellFormed →
    Part.AllWellFormed block.parts
  | ⟨_, items, source, selection, groupBy, having⟩, h => by
    obtain ⟨-, hi, hf, hs, hg, hh⟩ := SelectBlock.wellFormed_iff.1 h
    simp only [SelectBlock.parts_eq, allWellFormed_append]
    refine ⟨⟨⟨⟨SelectItem.allWellFormed_allParts items (SelectItem.allWellFormed_iff.2 hi), ?_⟩, ?_⟩,
      Expr.allWellFormed_allParts groupBy (Expr.allWellFormed_iff.2 hg)⟩, ?_⟩
    · cases source with
      | none => exact allWellFormed_nil
      | some source => exact source.allWellFormed_parts (hf source rfl)
    · cases selection with
      | none => exact allWellFormed_nil
      | some e => exact e.allWellFormed_parts (hs e rfl)
    · cases having with
      | none => exact allWellFormed_nil
      | some e => exact e.allWellFormed_parts (hh e rfl)

theorem SelectItem.allWellFormed_parts : (item : SelectItem) → item.WellFormed →
    Part.AllWellFormed item.parts
  | .wildcard, _ | .tableWildcard _, _ => allWellFormed_nil
  | .expr expr _, h => expr.allWellFormed_parts h

theorem SelectItem.allWellFormed_allParts : (items : List SelectItem) →
    SelectItem.AllWellFormed items → Part.AllWellFormed (SelectItem.allParts items)
  | [], _ => allWellFormed_nil
  | item :: items, h =>
    allWellFormed_append.2 ⟨item.allWellFormed_parts h.1, SelectItem.allWellFormed_allParts items h.2⟩

theorem FromClause.allWellFormed_parts : (f : FromClause) → f.WellFormed → Part.AllWellFormed f.parts
  | ⟨relation, joins⟩, h =>
    allWellFormed_append.2 ⟨relation.allWellFormed_parts h.1, Join.allWellFormed_allParts joins h.2⟩

theorem Relation.allWellFormed_parts : (r : Relation) → r.WellFormed → Part.AllWellFormed r.parts
  | .table _ _, _ => allWellFormed_nil
  | .function _ args _, h => Expr.allWellFormed_allParts args h
  | .derived query _, h => query.allWellFormed_parts h

theorem Join.allWellFormed_parts : (j : Join) → j.WellFormed → Part.AllWellFormed j.parts
  | ⟨_, relation, none⟩, h =>
    allWellFormed_append.2 ⟨relation.allWellFormed_parts h.1, allWellFormed_nil⟩
  | ⟨_, relation, some c⟩, h =>
    allWellFormed_append.2 ⟨relation.allWellFormed_parts h.1, c.allWellFormed_parts h.2.2⟩

theorem Join.allWellFormed_allParts : (joins : List Join) → Join.AllWellFormed joins →
    Part.AllWellFormed (Join.allParts joins)
  | [], _ => allWellFormed_nil
  | join :: joins, h =>
    allWellFormed_append.2 ⟨join.allWellFormed_parts h.1, Join.allWellFormed_allParts joins h.2⟩

theorem JoinConstraint.allWellFormed_parts : (c : JoinConstraint) → c.WellFormed →
    Part.AllWellFormed c.parts
  | .on condition, h => condition.allWellFormed_parts h
  | .using _, _ => allWellFormed_nil

theorem Limit.allWellFormed_parts : (l : Limit) → l.WellFormed → Part.AllWellFormed l.parts
  | ⟨count, none⟩, h => allWellFormed_append.2 ⟨count.allWellFormed_parts h.1, allWellFormed_nil⟩
  | ⟨count, some e⟩, h =>
    allWellFormed_append.2 ⟨count.allWellFormed_parts h.1, e.allWellFormed_parts h.2⟩

theorem Setting.allWellFormed_parts : (setting : Setting) → setting.WellFormed →
    Part.AllWellFormed setting.parts
  | ⟨_, value⟩, h => value.allWellFormed_parts h

theorem Setting.allWellFormed_allParts : (settings : List Setting) → Setting.AllWellFormed settings →
    Part.AllWellFormed (Setting.allParts settings)
  | [], _ => allWellFormed_nil
  | setting :: settings, h =>
    allWellFormed_append.2
      ⟨setting.allWellFormed_parts h.1, Setting.allWellFormed_allParts settings h.2⟩

end

/-! ### Parts of statements that are well formed -/

theorem Expr.allWellFormed_flatMap {es : List Expr} (h : ∀ e ∈ es, e.WellFormed) :
    Part.AllWellFormed (es.flatMap Expr.parts) :=
  .flatMap fun e he => e.allWellFormed_parts (h e he)

theorem Expr.allWellFormed_partsIn {o : Option Expr} (h : ∀ e ∈ o, e.WellFormed) :
    Part.AllWellFormed (partsIn Expr.parts o) :=
  .partsIn fun e he => e.allWellFormed_parts (h e he)

theorem Setting.allWellFormed_flatMap {settings : List Setting}
    (h : ∀ setting ∈ settings, setting.value.WellFormed) :
    Part.AllWellFormed (settings.flatMap Setting.parts) :=
  .flatMap fun setting hs => setting.allWellFormed_parts (Setting.wellFormed_iff.2 (h setting hs))

theorem Assignment.allWellFormed_flatMap {assignments : List Assignment}
    (h : ∀ a ∈ assignments, a.value.WellFormed) :
    Part.AllWellFormed (assignments.flatMap Assignment.parts) :=
  .flatMap fun a ha => a.value.allWellFormed_parts (h a ha)

theorem InsertSource.allWellFormed_parts {source : InsertSource} (h : source.WellFormed) :
    Part.AllWellFormed source.parts := by
  cases source with
  | values rows => exact .flatMap fun row hr => Expr.allWellFormed_flatMap (h.2 row hr).2
  | query q => exact q.allWellFormed_parts h

theorem ColumnDefinition.allWellFormed_parts {c : ColumnDefinition} (h : c.WellFormed) :
    Part.AllWellFormed c.parts := by
  refine .flatMap fun option ho => ?_
  have hw := h.2 option ho
  cases option with
  | default value | materialized value | computed value | check value => exact value.allWellFormed_parts hw
  | _ => exact allWellFormed_nil

theorem TableElement.allWellFormed_parts {element : TableElement} (h : element.WellFormed) :
    Part.AllWellFormed element.parts := by
  cases element with
  | column c => exact ColumnDefinition.allWellFormed_parts h
  | constraint c =>
    obtain ⟨name, kind⟩ := c
    cases kind with
    | check condition => exact condition.allWellFormed_parts h
    | _ => exact allWellFormed_nil

theorem Engine.allWellFormed_parts {e : Engine} (h : e.WellFormed) : Part.AllWellFormed e.parts :=
  .partsIn fun args ha => Expr.allWellFormed_flatMap (h args ha)

theorem CreateTable.allWellFormed_parts {c : CreateTable} (h : c.WellFormed) :
    Part.AllWellFormed c.parts := by
  obtain ⟨elements, engine, partition', primary, order, settings, query, -⟩ := h
  simp only [CreateTable.parts, allWellFormed_append]
  refine ⟨⟨⟨⟨⟨⟨?_, ?_⟩, ?_⟩, ?_⟩, ?_⟩, ?_⟩, ?_⟩
  · exact .flatMap fun element he => TableElement.allWellFormed_parts (elements element he)
  · exact .partsIn fun e he => Engine.allWellFormed_parts (engine e he)
  · exact Expr.allWellFormed_partsIn partition'
  · exact Expr.allWellFormed_partsIn primary
  · exact Expr.allWellFormed_partsIn order
  · exact Setting.allWellFormed_flatMap settings
  · exact .partsIn fun q hq => q.allWellFormed_parts (query q hq)

theorem AlterAction.allWellFormed_parts {action : AlterAction} (h : action.WellFormed) :
    Part.AllWellFormed action.parts := by
  cases action with
  | addColumn _ column _ | modifyColumn _ column => exact ColumnDefinition.allWellFormed_parts h
  | addConstraint _ _ check => exact check.allWellFormed_parts h
  | delete selection => exact selection.allWellFormed_parts h
  | update assignments selection =>
    rw [AlterAction.parts, allWellFormed_append]
    exact ⟨Assignment.allWellFormed_flatMap h.2.1, selection.allWellFormed_parts h.2.2⟩
  | _ => exact allWellFormed_nil

/-- The parts of a statement that is well formed are well formed. -/
theorem Statement.allWellFormed_parts {statement : Statement} (h : statement.WellFormed) :
    Part.AllWellFormed statement.parts := by
  induction statement with
  | select q => exact q.allWellFormed_parts h
  | insert i => exact InsertSource.allWellFormed_parts h.1
  | update u =>
    rw [Statement.parts, Update.parts, allWellFormed_append]
    exact ⟨Assignment.allWellFormed_flatMap h.2.1, Expr.allWellFormed_partsIn h.2.2⟩
  | delete d => exact Expr.allWellFormed_partsIn h
  | createTable c => exact CreateTable.allWellFormed_parts h
  | createView c => exact c.query.allWellFormed_parts h
  | createIndex c => exact .flatMap fun column hc => column.expr.allWellFormed_parts (h.2 column hc)
  | createDatabase c => exact .partsIn fun e he => Engine.allWellFormed_parts (h e he)
  | alterTable a => exact .flatMap fun action ha => AlterAction.allWellFormed_parts (h.2 action ha)
  | changeSettings settings => exact Setting.allWellFormed_flatMap h.2
  | explain _ statement ih => exact ih h
  | _ => exact allWellFormed_nil

/-! ### Parts of what is read -/

/-- Whether a part occurs in what some text is read as, a document or an expression. -/
inductive Part.Parsed (p : Part) : Prop where
  | document {text : String} {limit : Nat} {statements : List Statement} {statement : Statement}
      (read : parseDocument text limit = .ok statements) (among : statement ∈ statements)
      (inside : p ∈ statement.parts)
  | expression {text : String} {limit : Nat} {e : Expr} (read : parseExpr text limit = .ok e)
      (inside : p ∈ e.parts)

theorem Part.Parsed.wellFormed {p : Part} (h : p.Parsed) : p.WellFormed := by
  cases h with
  | @document text limit statements statement read among inside =>
    have statements' : ∀ statement ∈ statements, statement.WellFormed :=
      Parse.Sound.wellFormed (fun _ => (Parse.gives_statements ·|>.mono fun _ _ _ _ h => h.1)) read
    exact Statement.allWellFormed_parts (statements' statement among) p inside
  | @expression text limit e read inside =>
    exact e.allWellFormed_parts (Parse.Sound.wellFormed (fun _ => Parse.sound_wholeExpr) read) p inside

end CanonicalSql
