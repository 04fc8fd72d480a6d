import CanonicalSql.Parser.Grammar
import CanonicalSql.Parser.Name

/-! Rules for the types of columns and casts. -/

namespace CanonicalSql.Grammar

open Parse CanonicalSql.Symbol

/-- An argument of a type. -/
def typeArgument (g : Grammar) : Parse DataTypeArg := do
  match ← peek with
  | .number t =>
    discard advance
    return .number t
  | .string value =>
    discard advance
    return .string value
  | .ident _ | .quotedIdent _ => return .type (← g.dataType)
  | _ => fail .typeArgument

/-- A type: its name, and its arguments if parentheses follow. -/
def dataTypeRule (g : Grammar) : Parse DataType := do
  match (← peek).name? with
  | some name =>
    discard advance
    let args ← optionalList leftParen do
      let args ← commaListUpTo rightParen g.typeArgument
      expect rightParen
      return args
    return ⟨name, args⟩
  | none => fail .dataType

end CanonicalSql.Grammar
