import CanonicalSql.Proofs.Json.Sparse

/-! Expressions and queries are read back from their JSON form. -/

namespace CanonicalSql

open Json TreeReader

section

variable {n : Nat}

/-! ### Names, constants and choices -/

theorem QualifiedName.readAt (name : QualifiedName) : ReadAt n QualifiedName.decode? name.encode name := by
  have database : OptionalAt n _ _ name.database := .string name.database
  refine .mono (.record (by simp) (by simp [plainFields, database.plain]) fun h => ?_)
  simp [decode?, fields?, h.optionalField? "database" (by simp) database,
    h.field? "name" (by simp) (.string name.name)]

theorem ColumnRef.readAt (c : ColumnRef) : ReadAt n ColumnRef.decode? c.encode c := by
  have table : OptionalAt n _ _ c.table := .of_optional (fun name => name.readAt) c.table
  refine .mono (.record (by simp) (by simp [plainFields, table.plain]) fun h => ?_)
  simp [decode?, fields?, h.optionalField? "table" (by simp) table,
    h.field? "column" (by simp) (.string c.column)]

theorem Literal.readAt : (l : Literal) → ReadAt n Literal.decode? l.encode l
  | .number t => .mono (.variant (.string t) fun h => by simp [decode?, variant?, h])
  | .string value => .mono (.variant (.string value) fun h => by simp [decode?, variant?, h])
  | .boolean value => .mono (.variant (.bool value) fun h => by simp [decode?, variant?, h])
  | .null => .name rfl

theorem Json.ReadAt.word32 (word : UInt32) : ReadAt n word32? (.natural word.toNat) word where
  ne_null := by simp
  plain := by
    have fits : word.toNat < UInt64.size := word.toNat_lt.trans (by decide)
    simpa [Json.plain] using fits
  read sparse _ := by
    cases sparse
    simp [word32?, word.toNat_lt]

theorem Placeholder.readAt : (p : Placeholder) → ReadAt n Placeholder.decode? p.encode p
  | .anonymous => .name rfl
  | .numbered word => .mono (.variant (.word32 word) fun h => by simp [decode?, variant?, h])
  | .named name => .mono (.variant (.string name) fun h => by simp [decode?, variant?, h])
  | .dollar name => .mono (.variant (.string name) fun h => by simp [decode?, variant?, h])

theorem BinaryOp.readAt (op : BinaryOp) : ReadAt n BinaryOp.decode? (.string op.name) op :=
  .choice (by cases op <;> rfl)

theorem UnaryOp.readAt (op : UnaryOp) : ReadAt n UnaryOp.decode? (.string op.name) op :=
  .choice (by cases op <;> rfl)

theorem LikeOp.readAt (op : LikeOp) : ReadAt n LikeOp.decode? (.string op.name) op :=
  .choice (by cases op <;> rfl)

theorem SetOp.readAt (op : SetOp) : ReadAt n SetOp.decode? (.string op.name) op :=
  .choice (by cases op <;> rfl)

theorem SetQuantifier.readAt (q : SetQuantifier) : ReadAt n SetQuantifier.decode? (.string q.name) q :=
  .choice (by cases q <;> rfl)

theorem FrameUnit.readAt (u : FrameUnit) : ReadAt n FrameUnit.decode? (.string u.name) u :=
  .choice (by cases u <;> rfl)

theorem JoinKind.readAt (k : JoinKind) : ReadAt n JoinKind.decode? (.string k.name) k :=
  .choice (by cases k <;> rfl)

theorem SortDirection.optionalAt (d : Option SortDirection) :
    OptionalAt n SortDirection.decode? (.optionalString (d.map SortDirection.name)) d :=
  .choice (fun d => by cases d <;> rfl) d

theorem NullsOrder.optionalAt (o : Option NullsOrder) :
    OptionalAt n NullsOrder.decode? (.optionalString (o.map NullsOrder.name)) o :=
  .choice (fun o => by cases o <;> rfl) o

end

/-! ### Types -/

mutual

theorem DataType.readAt : (type : DataType) → (n : Nat) → ReadAt n (upTo n).dataType type.encode type
  | ⟨name, args⟩, n => readAt_dataType (fun n => by
      have items := ReadAt.list (DataTypeArg.itemsAt args n)
      rw [DataType.encode]
      refine .record (by simp) (by simp [plainFields, items.plain]) fun h => ?_
      simp [dataTypeRule, fields?, h.field? "args" (by simp) items.mono,
        h.field? "name" (by simp) (.string name)]) n

theorem DataTypeArg.readAt : (arg : DataTypeArg) → (n : Nat) →
    ReadAt n (upTo n).dataTypeArg arg.encode arg
  | .number t, n => .mono (.variant (.string t) fun h => by simp [dataTypeArg, variant?, h])
  | .string value, n => .mono (.variant (.string value) fun h => by simp [dataTypeArg, variant?, h])
  | .type type, n => .mono (.variant (type.readAt n) fun h => by simp [dataTypeArg, variant?, h])

theorem DataTypeArg.itemsAt : (args : List DataTypeArg) → (n : Nat) →
    ItemsAt n (upTo n).dataTypeArg (DataTypeArg.encodeAll args) args
  | [], _ => .nil
  | arg :: args, n => .cons (arg.readAt n) (DataTypeArg.itemsAt args n)

end

/-! ### Parts that may be absent

The encoders of records look into their optional parts in place. -/

theorem Expr.encode_cases (operand otherwise : Option Expr) (arms : List CaseArm) :
    (Expr.cases operand arms otherwise).encode = .variant "Case" (.object
      [("operand", .optional Expr.encode operand), ("whens", .array (CaseArm.encodeAll arms)),
        ("else_expr", .optional Expr.encode otherwise)]) := by
  cases operand <;> cases otherwise <;> rfl

theorem Call.encode_eq (c : Call) : c.encode = .object
    [("name", .string c.name), ("args", c.args.encode), ("distinct", .bool c.distinct),
      ("over", .optional Window.encode c.window)] := by
  obtain ⟨name, args, distinct, window⟩ := c
  cases window <;> rfl

theorem Window.encode_eq (w : Window) : w.encode = .object
    [("partition_by", .array (Expr.encodeAll w.partitionBy)),
      ("order_by", .array (OrderItem.encodeAll w.orderBy)),
      ("frame", .optional Frame.encode w.frame)] := by
  obtain ⟨partitionBy, orderBy, frame⟩ := w
  cases frame <;> rfl

theorem Frame.encode_eq (f : Frame) : f.encode = .object
    [("units", .string f.unit.name), ("start", f.start.encode),
      ("end", .optional FrameBound.encode f.finish)] := by
  obtain ⟨unit, start, finish⟩ := f
  cases finish <;> rfl

theorem Query.encode_eq (q : Query) : q.encode = .object
    [("with", .optional WithClause.encode q.tables), ("body", q.body.encode),
      ("order_by", .array (OrderItem.encodeAll q.orderBy)),
      ("limit", .optional Limit.encode q.limit), ("settings", .array (Setting.encodeAll q.settings)),
      ("format", .optionalString q.format)] := by
  obtain ⟨tables, body, orderBy, limit, settings, format⟩ := q
  cases tables <;> cases limit <;> rfl

theorem SelectBlock.encode_eq (b : SelectBlock) : b.encode = .object
    [("distinct", .bool b.distinct), ("projection", .array (SelectItem.encodeAll b.items)),
      ("from", .optional FromClause.encode b.source),
      ("selection", .optional Expr.encode b.selection),
      ("group_by", .array (Expr.encodeAll b.groupBy)),
      ("having", .optional Expr.encode b.having)] := by
  obtain ⟨distinct, items, source, selection, groupBy, having⟩ := b
  cases source <;> cases having <;> cases selection <;> rfl

theorem Join.encode_eq (j : Join) : j.encode = .object
    [("kind", .string j.kind.name), ("relation", j.relation.encode),
      ("constraint", .optional JoinConstraint.encode j.constraint)] := by
  obtain ⟨kind, relation, constraint⟩ := j
  cases constraint <;> rfl

theorem Limit.encode_eq (l : Limit) : l.encode = .object
    [("limit", l.count.encode), ("offset", .optional Expr.encode l.offset)] := by
  obtain ⟨count, offset⟩ := l
  cases offset <;> rfl

/-! ### Expressions and queries -/

/-- An expression that is written as a record. -/
theorem readAt_composed {name : String} {fields : List (String × Json)} {e : Expr}
    (rule : ∀ (t : TreeReader) (content : Json),
      t.exprRule (.object [(name, content)]) = t.composedExpr name content)
    (distinct : (fields.map Prod.fst).Nodup) (plain : plainFields fields = true)
    (read : ∀ {n left}, FieldsAt n fields left → (upTo n).composedExpr name (.object left) = some e) :
    ∀ n, ReadAt n (upTo n).expr (.variant name (.object fields)) e :=
  readAt_expr fun n => .variant (.mono (.record distinct plain (read (n := n))) ) fun h => (rule _ _).trans h

/-- The items of a list of expressions. -/
theorem Expr.listAt_of_itemsAt {es : List Expr}
    (h : ∀ n, ItemsAt n (upTo n).expr (Expr.encodeAll es) es) (n : Nat) :
    ReadAt n (upTo n).exprs (.array (Expr.encodeAll es)) es :=
  .mono (.list (h n))

mutual

theorem Expr.readAt : (e : Expr) → (n : Nat) → ReadAt n (upTo n).expr e.encode e
  | .literal value, n => by
    rw [Expr.encode]
    exact readAt_expr (fun n => .variant value.readAt fun h => by simp [exprRule, variant?, h]) n
  | .column c, n => by
    rw [Expr.encode]
    exact readAt_expr (fun n => .variant c.readAt fun h => by simp [exprRule, variant?, h]) n
  | .placeholder p, n => by
    rw [Expr.encode]
    exact readAt_expr (fun n => .variant p.readAt fun h => by simp [exprRule, variant?, h]) n
  | .binary left op right, n => by
    have l := left.readAt
    have r := right.readAt
    rw [Expr.encode]
    refine readAt_composed (fun _ _ => rfl) (by simp)
      (by simp [plainFields, (l n).plain, (r n).plain]) (fun {m _} h => ?_) n
    simp [composedExpr, fields?, h.field? "left" (by simp) (l m), h.field? "op" (by simp) op.readAt,
      h.field? "right" (by simp) (r m)]
  | .unary op operand, n => by
    have e := operand.readAt
    rw [Expr.encode]
    refine readAt_composed (fun _ _ => rfl) (by simp) (by simp [plainFields, (e n).plain])
      (fun {m _} h => ?_) n
    simp [composedExpr, fields?, h.field? "op" (by simp) op.readAt, h.field? "expr" (by simp) (e m)]
  | .between value low high negated, n => by
    have v := value.readAt
    have l := low.readAt
    have u := high.readAt
    rw [Expr.encode]
    refine readAt_composed (fun _ _ => rfl) (by simp)
      (by simp [plainFields, (v n).plain, (l n).plain, (u n).plain]) (fun {m _} h => ?_) n
    simp [composedExpr, fields?, h.field? "expr" (by simp) (v m), h.field? "low" (by simp) (l m),
      h.field? "high" (by simp) (u m), h.field? "negated" (by simp) (.bool negated)]
  | .member value set negated, n => by
    have v := value.readAt
    have s := set.readAt
    rw [Expr.encode]
    refine readAt_composed (fun _ _ => rfl) (by simp)
      (by simp [plainFields, (v n).plain, (s n).plain]) (fun {m _} h => ?_) n
    simp [composedExpr, fields?, h.field? "expr" (by simp) (v m), h.field? "set" (by simp) (s m),
      h.field? "negated" (by simp) (.bool negated)]
  | .like value op pattern negated, n => by
    have v := value.readAt
    have p := pattern.readAt
    rw [Expr.encode]
    refine readAt_composed (fun _ _ => rfl) (by simp)
      (by simp [plainFields, (v n).plain, (p n).plain]) (fun {m _} h => ?_) n
    simp [composedExpr, fields?, h.field? "expr" (by simp) (v m), h.field? "op" (by simp) op.readAt,
      h.field? "pattern" (by simp) (p m), h.field? "negated" (by simp) (.bool negated)]
  | .isNull value negated, n => by
    have v := value.readAt
    rw [Expr.encode]
    refine readAt_composed (fun _ _ => rfl) (by simp) (by simp [plainFields, (v n).plain])
      (fun {m _} h => ?_) n
    simp [composedExpr, fields?, h.field? "expr" (by simp) (v m),
      h.field? "negated" (by simp) (.bool negated)]
  | .cases operand arms otherwise, n => by
    have o := Expr.optionalAt operand
    have a := fun m => ReadAt.list (CaseArm.itemsAt arms m)
    have e := Expr.optionalAt otherwise
    rw [Expr.encode_cases]
    refine readAt_composed (fun _ _ => rfl) (by simp)
      (by simp [plainFields, (o n).plain, (a n).plain, (e n).plain]) (fun {m _} h => ?_) n
    simp [composedExpr, fields?, h.optionalField? "operand" (by simp) (o m),
      h.field? "whens" (by simp) (a m).mono, h.optionalField? "else_expr" (by simp) (e m)]
  | .cast value type, n => by
    have v := value.readAt
    have t := type.readAt
    rw [Expr.encode]
    refine readAt_composed (fun _ _ => rfl) (by simp)
      (by simp [plainFields, (v n).plain, (t n).plain]) (fun {m _} h => ?_) n
    simp [composedExpr, fields?, h.field? "expr" (by simp) (v m),
      h.field? "data_type" (by simp) (t m)]
  | .existence query, n => by
    have q := query.readAt
    rw [Expr.encode]
    exact readAt_expr (fun n => .variant (q n) fun h => by simp [exprRule, variant?, h]) n
  | .subquery query, n => by
    have q := query.readAt
    rw [Expr.encode]
    exact readAt_expr (fun n => .variant (q n) fun h => by simp [exprRule, variant?, h]) n
  | .call call, n => by
    have c := call.readAt
    rw [Expr.encode]
    exact readAt_expr (fun n => .variant (c n) fun h => by simp [exprRule, variant?, h]) n
  | .tuple items, n => by
    have es := Expr.listAt_of_itemsAt (Expr.itemsAt items)
    rw [Expr.encode]
    exact readAt_expr (fun n => .variant (es n) fun h => by simp [exprRule, variant?, h]) n
  | .array items, n => by
    have es := Expr.listAt_of_itemsAt (Expr.itemsAt items)
    rw [Expr.encode]
    exact readAt_expr (fun n => .variant (es n) fun h => by simp [exprRule, variant?, h]) n
  | .subscript base index, n => by
    have b := base.readAt
    have i := index.readAt
    rw [Expr.encode]
    refine readAt_composed (fun _ _ => rfl) (by simp)
      (by simp [plainFields, (b n).plain, (i n).plain]) (fun {m _} h => ?_) n
    simp [composedExpr, fields?, h.field? "expr" (by simp) (b m), h.field? "index" (by simp) (i m)]
  | .interval value unit, n => by
    have v := value.readAt
    rw [Expr.encode]
    refine readAt_composed (fun _ _ => rfl) (by simp) (by simp [plainFields, (v n).plain])
      (fun {m _} h => ?_) n
    simp [composedExpr, fields?, h.field? "value" (by simp) (v m),
      h.field? "unit" (by simp) (.string unit)]

theorem Expr.itemsAt : (es : List Expr) → (n : Nat) → ItemsAt n (upTo n).expr (Expr.encodeAll es) es
  | [], _ => .nil
  | e :: es, n => .cons (e.readAt n) (Expr.itemsAt es n)

theorem Expr.optionalAt : (e : Option Expr) → (n : Nat) →
    OptionalAt n (upTo n).expr (.optional Expr.encode e) e
  | none, _ => .none
  | some e, n => .some (e.readAt n)

theorem MemberSet.readAt : (set : MemberSet) → (n : Nat) → ReadAt n (upTo n).memberSet set.encode set
  | .list items, n => by
    have es := Expr.listAt_of_itemsAt (Expr.itemsAt items) n
    rw [MemberSet.encode]
    exact .mono (.variant es fun h => by simp [memberSet, variant?, h])
  | .query query, n => by
    have q := query.readAt n
    rw [MemberSet.encode]
    exact .mono (.variant q fun h => by simp [memberSet, variant?, h])

theorem CaseArm.readAt : (arm : CaseArm) → (n : Nat) → ReadAt n (upTo n).caseArm arm.encode arm
  | ⟨condition, result⟩, n => by
    have c := condition.readAt n
    have r := result.readAt n
    rw [CaseArm.encode]
    refine .mono (.record (by simp) (by simp [plainFields, c.plain, r.plain]) fun h => ?_)
    simp [caseArm, fields?, h.field? "condition" (by simp) c, h.field? "result" (by simp) r]

theorem CaseArm.itemsAt : (arms : List CaseArm) → (n : Nat) →
    ItemsAt n (upTo n).caseArm (CaseArm.encodeAll arms) arms
  | [], _ => .nil
  | arm :: arms, n => .cons (arm.readAt n) (CaseArm.itemsAt arms n)

theorem Call.readAt : (c : Call) → (n : Nat) → ReadAt n (upTo n).call c.encode c
  | ⟨name, args, distinct, window⟩, n => by
    have a := args.readAt n
    have w := Window.optionalAt window n
    rw [Call.encode_eq]
    refine .mono (.record (by simp) (by simp [plainFields, a.plain, w.plain]) fun h => ?_)
    simp [call, fields?, h.field? "name" (by simp) (.string name), h.field? "args" (by simp) a,
      h.field? "distinct" (by simp) (.bool distinct), h.optionalField? "over" (by simp) w]

theorem CallArgs.readAt : (args : CallArgs) → (n : Nat) → ReadAt n (upTo n).callArgs args.encode args
  | .star, _ => by
    rw [CallArgs.encode]
    exact .name rfl
  | .list items, n => by
    have es := Expr.listAt_of_itemsAt (Expr.itemsAt items) n
    rw [CallArgs.encode]
    exact .mono (.variant es fun h => by simp [callArgs, variant?, h])

theorem Window.readAt : (w : Window) → (n : Nat) → ReadAt n (upTo n).window w.encode w
  | ⟨partitionBy, orderBy, frame⟩, n => by
    have p := Expr.listAt_of_itemsAt (Expr.itemsAt partitionBy) n
    have o := ReadAt.list (OrderItem.itemsAt orderBy n)
    have f := Frame.optionalAt frame n
    rw [Window.encode_eq]
    refine .mono (.record (by simp) (by simp [plainFields, p.plain, o.plain, f.plain]) fun h => ?_)
    simp [window, fields?, h.field? "partition_by" (by simp) p,
      h.field? "order_by" (by simp) o.mono, h.optionalField? "frame" (by simp) f]

theorem Window.optionalAt : (w : Option Window) → (n : Nat) →
    OptionalAt n (upTo n).window (.optional Window.encode w) w
  | none, _ => .none
  | some w, n => .some (w.readAt n)

theorem Frame.readAt : (f : Frame) → (n : Nat) → ReadAt n (upTo n).frame f.encode f
  | ⟨unit, start, finish⟩, n => by
    have s := start.readAt n
    have f := FrameBound.optionalAt finish n
    rw [Frame.encode_eq]
    refine .mono (.record (by simp) (by simp [plainFields, s.plain, f.plain]) fun h => ?_)
    simp [frame, fields?, h.field? "units" (by simp) unit.readAt, h.field? "start" (by simp) s,
      h.optionalField? "end" (by simp) f]

theorem Frame.optionalAt : (f : Option Frame) → (n : Nat) →
    OptionalAt n (upTo n).frame (.optional Frame.encode f) f
  | none, _ => .none
  | some f, n => .some (f.readAt n)

theorem FrameBound.readAt : (b : FrameBound) → (n : Nat) → ReadAt n (upTo n).frameBound b.encode b
  | .unboundedPreceding, _ | .currentRow, _ | .unboundedFollowing, _ => by
    rw [FrameBound.encode]
    exact .name rfl
  | .preceding offset, n | .following offset, n => by
    have e := offset.readAt n
    rw [FrameBound.encode]
    exact .mono (.variant e fun h => by simp [frameBound, variant?, h])

theorem FrameBound.optionalAt : (b : Option FrameBound) → (n : Nat) →
    OptionalAt n (upTo n).frameBound (.optional FrameBound.encode b) b
  | none, _ => .none
  | some b, n => .some (b.readAt n)

theorem OrderItem.readAt : (i : OrderItem) → (n : Nat) → ReadAt n (upTo n).orderItem i.encode i
  | ⟨expr, direction, nulls⟩, n => by
    have e := expr.readAt n
    have d : OptionalAt n _ _ direction := SortDirection.optionalAt direction
    have o : OptionalAt n _ _ nulls := NullsOrder.optionalAt nulls
    rw [OrderItem.encode]
    refine .mono (.record (by simp) (by simp [plainFields, e.plain, d.plain, o.plain]) fun h => ?_)
    simp [orderItem, fields?, h.field? "expr" (by simp) e, h.optionalField? "direction" (by simp) d,
      h.optionalField? "nulls" (by simp) o]

theorem OrderItem.itemsAt : (is : List OrderItem) → (n : Nat) →
    ItemsAt n (upTo n).orderItem (OrderItem.encodeAll is) is
  | [], _ => .nil
  | i :: is, n => .cons (i.readAt n) (OrderItem.itemsAt is n)

theorem Query.readAt : (q : Query) → (n : Nat) → ReadAt n (upTo n).query q.encode q
  | ⟨tables, body, orderBy, limit, settings, format⟩, n => by
    have t := WithClause.optionalAt tables
    have b := body.readAt
    have o := fun m => ReadAt.list (OrderItem.itemsAt orderBy m)
    have l := Limit.optionalAt limit
    have s := fun m => ReadAt.list (Setting.itemsAt settings m)
    have f : ∀ m, OptionalAt m _ _ format := fun m => .string format
    rw [Query.encode_eq]
    refine readAt_query (fun m => .record (by simp) (by simp [plainFields, (t n).plain, (b n).plain,
      (o n).plain, (l n).plain, (s n).plain, (f n).plain]) fun h => ?_) n
    simp [queryRule, fields?, h.optionalField? "with" (by simp) (t m), h.field? "body" (by simp) (b m),
      h.field? "order_by" (by simp) (o m).mono, h.optionalField? "limit" (by simp) (l m),
      h.field? "settings" (by simp) (s m).mono, h.optionalField? "format" (by simp) (f m)]

theorem QueryBody.readAt : (b : QueryBody) → (n : Nat) → ReadAt n (upTo n).body b.encode b
  | .block block, n => by
    have b := block.readAt
    rw [QueryBody.encode]
    exact readAt_body (fun n => .variant (b n) fun h => by simp [bodyRule, variant?, h]) n
  | .nested query, n => by
    have q := query.readAt
    rw [QueryBody.encode]
    exact readAt_body (fun n => .variant (q n) fun h => by simp [bodyRule, variant?, h]) n
  | .compound op quantifier left right, n => by
    have l := left.readAt
    have r := right.readAt
    rw [QueryBody.encode]
    refine readAt_body (fun m => .variantRecord (by simp)
      (by simp [plainFields, (l n).plain, (r n).plain]) fun h => ?_) n
    simp [bodyRule, variant?, fields?, h.field? "op" (by simp) op.readAt,
      h.field? "quantifier" (by simp) quantifier.readAt, h.field? "left" (by simp) (l m),
      h.field? "right" (by simp) (r m)]

theorem WithClause.readAt : (c : WithClause) → (n : Nat) → ReadAt n (upTo n).withClause c.encode c
  | ⟨recursive, tables⟩, n => by
    have t := ReadAt.list (CommonTable.itemsAt tables n)
    rw [WithClause.encode]
    refine .mono (.record (by simp) (by simp [plainFields, t.plain]) fun h => ?_)
    simp [withClause, fields?, h.field? "recursive" (by simp) (.bool recursive),
      h.field? "ctes" (by simp) t.mono]

theorem WithClause.optionalAt : (c : Option WithClause) → (n : Nat) →
    OptionalAt n (upTo n).withClause (.optional WithClause.encode c) c
  | none, _ => .none
  | some c, n => .some (c.readAt n)

theorem CommonTable.readAt : (t : CommonTable) → (n : Nat) →
    ReadAt n (upTo n).commonTable t.encode t
  | ⟨name, columns, query⟩, n => by
    have c : ReadAt (n + 1) _ _ columns := .strings columns
    have q := query.readAt n
    rw [CommonTable.encode]
    refine .mono (.record (by simp) (by simp [plainFields, c.plain, q.plain]) fun h => ?_)
    simp [commonTable, fields?, h.field? "name" (by simp) (.string name),
      h.field? "columns" (by simp) c.mono, h.field? "query" (by simp) q]

theorem CommonTable.itemsAt : (ts : List CommonTable) → (n : Nat) →
    ItemsAt n (upTo n).commonTable (CommonTable.encodeAll ts) ts
  | [], _ => .nil
  | t :: ts, n => .cons (t.readAt n) (CommonTable.itemsAt ts n)

theorem SelectBlock.readAt : (b : SelectBlock) → (n : Nat) →
    ReadAt n (upTo n).selectBlock b.encode b
  | ⟨distinct, items, source, selection, groupBy, having⟩, n => by
    have i := ReadAt.list (SelectItem.itemsAt items n)
    have f := FromClause.optionalAt source n
    have s := Expr.optionalAt selection n
    have g := Expr.listAt_of_itemsAt (Expr.itemsAt groupBy) n
    have e := Expr.optionalAt having n
    rw [SelectBlock.encode_eq]
    refine .mono (.record (by simp)
      (by simp [plainFields, i.plain, f.plain, s.plain, g.plain, e.plain]) fun h => ?_)
    simp [selectBlock, fields?, h.field? "distinct" (by simp) (.bool distinct),
      h.field? "projection" (by simp) i.mono, h.optionalField? "from" (by simp) f,
      h.optionalField? "selection" (by simp) s, h.field? "group_by" (by simp) g,
      h.optionalField? "having" (by simp) e]

theorem SelectItem.readAt : (i : SelectItem) → (n : Nat) → ReadAt n (upTo n).selectItem i.encode i
  | .wildcard, _ => by
    rw [SelectItem.encode]
    exact .name rfl
  | .tableWildcard table, n => by
    rw [SelectItem.encode]
    exact .mono (.variant table.readAt fun h => by simp [selectItem, variant?, h])
  | .expr expr asName, n => by
    have e := expr.readAt n
    have a : OptionalAt n _ _ asName := .string asName
    rw [SelectItem.encode]
    refine .mono (.variantRecord (by simp) (by simp [plainFields, e.plain, a.plain]) fun h => ?_)
    simp [selectItem, variant?, fields?, h.field? "expr" (by simp) e,
      h.optionalField? "alias" (by simp) a]

theorem SelectItem.itemsAt : (is : List SelectItem) → (n : Nat) →
    ItemsAt n (upTo n).selectItem (SelectItem.encodeAll is) is
  | [], _ => .nil
  | i :: is, n => .cons (i.readAt n) (SelectItem.itemsAt is n)

theorem FromClause.readAt : (c : FromClause) → (n : Nat) → ReadAt n (upTo n).fromClause c.encode c
  | ⟨relation, joins⟩, n => by
    have r := relation.readAt n
    have j := ReadAt.list (Join.itemsAt joins n)
    rw [FromClause.encode]
    refine .mono (.record (by simp) (by simp [plainFields, r.plain, j.plain]) fun h => ?_)
    simp [fromClause, fields?, h.field? "relation" (by simp) r, h.field? "joins" (by simp) j.mono]

theorem FromClause.optionalAt : (c : Option FromClause) → (n : Nat) →
    OptionalAt n (upTo n).fromClause (.optional FromClause.encode c) c
  | none, _ => .none
  | some c, n => .some (c.readAt n)

theorem Relation.readAt : (r : Relation) → (n : Nat) → ReadAt n (upTo n).relation r.encode r
  | .table name asName, n => by
    have a : OptionalAt n _ _ asName := .string asName
    have t : ReadAt n _ _ name := name.readAt
    rw [Relation.encode]
    refine .mono (.variantRecord (by simp) (by simp [plainFields, a.plain, t.plain]) fun h => ?_)
    simp [relation, variant?, fields?, h.optionalField? "alias" (by simp) a,
      h.field? "name" (by simp) t]
  | .function name args asName, n => by
    have a : OptionalAt n _ _ asName := .string asName
    have es := Expr.listAt_of_itemsAt (Expr.itemsAt args) n
    rw [Relation.encode]
    refine .mono (.variantRecord (by simp) (by simp [plainFields, a.plain, es.plain]) fun h => ?_)
    simp [relation, variant?, fields?, h.optionalField? "alias" (by simp) a,
      h.field? "name" (by simp) (.string name), h.field? "args" (by simp) es]
  | .derived query asName, n => by
    have a : OptionalAt n _ _ asName := .string asName
    have q := query.readAt n
    rw [Relation.encode]
    refine .mono (.variantRecord (by simp) (by simp [plainFields, a.plain, q.plain]) fun h => ?_)
    simp [relation, variant?, fields?, h.optionalField? "alias" (by simp) a,
      h.field? "subquery" (by simp) q]

theorem Join.readAt : (j : Join) → (n : Nat) → ReadAt n (upTo n).join j.encode j
  | ⟨kind, relation, constraint⟩, n => by
    have r := relation.readAt n
    have c := JoinConstraint.optionalAt constraint n
    rw [Join.encode_eq]
    refine .mono (.record (by simp) (by simp [plainFields, r.plain, c.plain]) fun h => ?_)
    simp [join, fields?, h.field? "kind" (by simp) kind.readAt, h.field? "relation" (by simp) r,
      h.optionalField? "constraint" (by simp) c]

theorem Join.itemsAt : (js : List Join) → (n : Nat) →
    ItemsAt n (upTo n).join (Join.encodeAll js) js
  | [], _ => .nil
  | j :: js, n => .cons (j.readAt n) (Join.itemsAt js n)

theorem JoinConstraint.readAt : (c : JoinConstraint) → (n : Nat) →
    ReadAt n (upTo n).joinConstraint c.encode c
  | .on condition, n => by
    have e := condition.readAt n
    rw [JoinConstraint.encode]
    exact .mono (.variant e fun h => by simp [joinConstraint, variant?, h])
  | .using columns, n => by
    have c : ReadAt (n + 1) _ _ columns := .strings columns
    rw [JoinConstraint.encode]
    exact .mono (.variant c.mono fun h => by simp [joinConstraint, variant?, h])

theorem JoinConstraint.optionalAt : (c : Option JoinConstraint) → (n : Nat) →
    OptionalAt n (upTo n).joinConstraint (.optional JoinConstraint.encode c) c
  | none, _ => .none
  | some c, n => .some (c.readAt n)

theorem Limit.readAt : (l : Limit) → (n : Nat) → ReadAt n (upTo n).limit l.encode l
  | ⟨count, offset⟩, n => by
    have c := count.readAt n
    have o := Expr.optionalAt offset n
    rw [Limit.encode_eq]
    refine .mono (.record (by simp) (by simp [plainFields, c.plain, o.plain]) fun h => ?_)
    simp [limit, fields?, h.field? "limit" (by simp) c, h.optionalField? "offset" (by simp) o]

theorem Limit.optionalAt : (l : Option Limit) → (n : Nat) →
    OptionalAt n (upTo n).limit (.optional Limit.encode l) l
  | none, _ => .none
  | some l, n => .some (l.readAt n)

theorem Setting.readAt : (s : Setting) → (n : Nat) → ReadAt n (upTo n).setting s.encode s
  | ⟨name, value⟩, n => by
    have v := value.readAt n
    rw [Setting.encode]
    refine .mono (.record (by simp) (by simp [plainFields, v.plain]) fun h => ?_)
    simp [setting, fields?, h.field? "name" (by simp) (.string name), h.field? "value" (by simp) v]

theorem Setting.itemsAt : (ss : List Setting) → (n : Nat) →
    ItemsAt n (upTo n).setting (Setting.encodeAll ss) ss
  | [], _ => .nil
  | s :: ss, n => .cons (s.readAt n) (Setting.itemsAt ss n)

end

end CanonicalSql
