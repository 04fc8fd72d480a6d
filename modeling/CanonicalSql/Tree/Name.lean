/-! Names of tables and columns. -/

namespace CanonicalSql

/-- The name of a table, view or index: `name` or `database.name`. -/
structure QualifiedName where
  database : Option String
  name : String
  deriving DecidableEq

/-- The name `name` without a database. -/
def QualifiedName.bare (name : String) : QualifiedName := ⟨none, name⟩

/-- The name of a column: `column`, `table.column` or `database.table.column`. -/
structure ColumnRef where
  table : Option QualifiedName
  column : String
  deriving DecidableEq

end CanonicalSql
