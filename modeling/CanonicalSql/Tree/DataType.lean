/-! The types of columns and casts, such as `UInt64` or `Array(DateTime64(3, 'UTC'))`. -/

namespace CanonicalSql

mutual

/-- A type's name and its arguments; there are no parentheses where there are no arguments. -/
structure DataType where
  name : String
  args : List DataTypeArg

/-- An argument of a type. -/
inductive DataTypeArg where
  | number (text : String)
  | string (value : String)
  | type (type : DataType)

end

end CanonicalSql
