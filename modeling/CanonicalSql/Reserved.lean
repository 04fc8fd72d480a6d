import CanonicalSql.Text.CharClass

/-! The reserved words as the printer looks them up: a sorted table of spellings searched by
bisection.  A name that is in the table is printed between quotes. -/

namespace CanonicalSql

/-- The spellings of the reserved words, in increasing order. -/
def reservedWords : Array String :=
  #["ALIAS", "ALL", "ALTER", "AND", "AS", "ASC", "BETWEEN", "BY", "CASE", "CAST", "CHECK",
    "COMMENT", "CONSTRAINT", "CREATE", "CROSS", "CURRENT", "DEFAULT", "DELETE", "DESC",
    "DISTINCT", "DROP", "ELSE", "END", "EXCEPT", "EXISTS", "FALSE", "FOREIGN", "FORMAT", "FROM",
    "FULL", "GROUP", "HAVING", "ILIKE", "IN", "INNER", "INSERT", "INTERSECT", "INTERVAL", "INTO",
    "IS", "JOIN", "LEFT", "LIKE", "LIMIT", "MATERIALIZED", "NOT", "NULL", "ON", "OR", "ORDER",
    "OUTER", "PRIMARY", "RECURSIVE", "REFERENCES", "RIGHT", "SELECT", "SET", "SETTINGS", "TABLE",
    "THEN", "TRUE", "UNBOUNDED", "UNION", "UNIQUE", "UPDATE", "USING", "VALUES", "WHEN", "WHERE",
    "WITH"]

/-- Whether `word` is one of the elements `low`, …, `high - 1` of the increasing array `table`.
Each of the `steps` halves the stretch that is left. -/
def bisect (table : Array String) (word : String) : (steps low high : Nat) → Bool
  | 0, _, _ => false
  | steps + 1, low, high =>
    if low < high then
      let middle := (low + high) / 2
      match table[middle]? with
      | none => false
      | some found =>
        if found = word then true
        else if found < word then bisect table word steps (middle + 1) high
        else bisect table word steps low middle
    else false

/-- Whether `word` is reserved, in any mixture of capitals and small letters. -/
def isReserved (word : String) : Bool :=
  bisect reservedWords (capitals word) (reservedWords.size + 1) 0 reservedWords.size

end CanonicalSql
