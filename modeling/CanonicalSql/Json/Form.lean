import CanonicalSql.Document
import CanonicalSql.Json.Decode
import CanonicalSql.Json.Encode
import CanonicalSql.Json.Text

/-! The types that have a JSON form, equality of their values, and the form of a configuration. -/

namespace CanonicalSql

/-- The types of trees that have a JSON form, as their declarations fix it. -/
class JsonForm (α : Type) where
  encode : α → Json
  /-- The tree that has a form, with a reader for the forms of the trees inside it. -/
  reader : TreeReader → Json → Option α

/-- The tree that has a form, whatever the order of its fields. -/
def decode? {α : Type} [JsonForm α] (j : Json) : Option α := Json.read? JsonForm.reader j

/-- Whether two trees are the same: they have the same JSON form. -/
def sameTree {α : Type} [JsonForm α] (a b : α) : Bool :=
  (JsonForm.encode a).same (JsonForm.encode b)

/-- Whether two lists of trees are the same. -/
def sameTrees {α : Type} [JsonForm α] (as bs : List α) : Bool :=
  Json.sameItems (as.map JsonForm.encode) (bs.map JsonForm.encode)

/-- The number of levels that a configuration allows, which has to fit 64 bits. -/
def limitOfConfig? (j : Json) : Option Nat := do
  match (← j.fields?).lookup "max_depth" with
  | none => return defaultLimit
  | some (.natural n) => if n < UInt64.size then return n else none
  | some _ => none

instance : JsonForm BinaryOp := ⟨fun op => .string op.name, fun _ => BinaryOp.decode?⟩
instance : JsonForm QualifiedName := ⟨QualifiedName.encode, fun _ => QualifiedName.decode?⟩
instance : JsonForm ColumnRef := ⟨ColumnRef.encode, fun _ => ColumnRef.decode?⟩
instance : JsonForm Literal := ⟨Literal.encode, fun _ => Literal.decode?⟩
instance : JsonForm Placeholder := ⟨Placeholder.encode, fun _ => Placeholder.decode?⟩
instance : JsonForm DataType := ⟨DataType.encode, TreeReader.dataTypeRule⟩
instance : JsonForm DataTypeArg := ⟨DataTypeArg.encode, TreeReader.dataTypeArg⟩
instance : JsonForm Expr := ⟨Expr.encode, TreeReader.exprRule⟩
instance : JsonForm Call := ⟨Call.encode, TreeReader.call⟩
instance : JsonForm Window := ⟨Window.encode, TreeReader.window⟩
instance : JsonForm Frame := ⟨Frame.encode, TreeReader.frame⟩
instance : JsonForm FrameBound := ⟨FrameBound.encode, TreeReader.frameBound⟩
instance : JsonForm OrderItem := ⟨OrderItem.encode, TreeReader.orderItem⟩
instance : JsonForm Setting := ⟨Setting.encode, TreeReader.setting⟩
instance : JsonForm Assignment := ⟨Assignment.encode, TreeReader.assignment⟩
instance : JsonForm Query := ⟨Query.encode, TreeReader.queryRule⟩
instance : JsonForm QueryBody := ⟨QueryBody.encode, TreeReader.bodyRule⟩
instance : JsonForm WithClause := ⟨WithClause.encode, TreeReader.withClause⟩
instance : JsonForm CommonTable := ⟨CommonTable.encode, TreeReader.commonTable⟩
instance : JsonForm SelectBlock := ⟨SelectBlock.encode, TreeReader.selectBlock⟩
instance : JsonForm SelectItem := ⟨SelectItem.encode, TreeReader.selectItem⟩
instance : JsonForm FromClause := ⟨FromClause.encode, TreeReader.fromClause⟩
instance : JsonForm Relation := ⟨Relation.encode, TreeReader.relation⟩
instance : JsonForm Join := ⟨Join.encode, TreeReader.join⟩
instance : JsonForm Insert := ⟨Insert.encode, TreeReader.insert⟩
instance : JsonForm Update := ⟨Update.encode, TreeReader.update⟩
instance : JsonForm Delete := ⟨Delete.encode, TreeReader.delete⟩
instance : JsonForm CreateTable := ⟨CreateTable.encode, TreeReader.createTable⟩
instance : JsonForm TableElement := ⟨TableElement.encode, TreeReader.tableElement⟩
instance : JsonForm ColumnDefinition := ⟨ColumnDefinition.encode, TreeReader.columnDefinition⟩
instance : JsonForm ColumnOption := ⟨ColumnOption.encode, TreeReader.columnOption⟩
instance : JsonForm ForeignReference :=
  ⟨ForeignReference.encode, fun _ => TreeReader.foreignReference⟩
instance : JsonForm TableConstraint := ⟨TableConstraint.encode, TreeReader.tableConstraint⟩
instance : JsonForm Engine := ⟨Engine.encode, TreeReader.engine⟩
instance : JsonForm CreateView := ⟨CreateView.encode, TreeReader.createView⟩
instance : JsonForm CreateIndex := ⟨CreateIndex.encode, TreeReader.createIndex⟩
instance : JsonForm CreateDatabase := ⟨CreateDatabase.encode, TreeReader.createDatabase⟩
instance : JsonForm AlterTable := ⟨AlterTable.encode, TreeReader.alterTable⟩
instance : JsonForm AlterAction := ⟨AlterAction.encode, TreeReader.alterAction⟩
instance : JsonForm Drop := ⟨Drop.encode, fun _ => TreeReader.drop⟩
instance : JsonForm Truncate := ⟨Truncate.encode, fun _ => TreeReader.truncate⟩
instance : JsonForm Rename := ⟨Rename.encode, fun _ => TreeReader.rename⟩
instance : JsonForm Listing := ⟨Listing.encode, fun _ => TreeReader.listing⟩
instance : JsonForm Optimize := ⟨Optimize.encode, fun _ => TreeReader.optimize⟩
instance : JsonForm Statement := ⟨Statement.encode, TreeReader.statementRule⟩

end CanonicalSql
