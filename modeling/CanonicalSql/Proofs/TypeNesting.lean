import Mathlib
import CanonicalSql.Proofs.Printable
import CanonicalSql.Proofs.Reading.Document
import CanonicalSql.Proofs.Types.Statement

/-! How deep types are nested.  The rule for types goes into itself without opening a level, so the limit
of nesting has no say in it: types of every depth are accepted within every limit.  What bounds their depth
is the number of parentheses that the source opens. -/

namespace CanonicalSql

/-- A table with a single column of the type. -/
def DataType.inTable (type : DataType) : Statement :=
  .createTable ⟨false, false, false, .bare "t", none, [.column ⟨"c", some type, []⟩], none, none, none, none,
    [], none, none⟩

/-- The type `A(A(...))` with `n` types in one another inside it. -/
def DataType.tower : (n : Nat) → DataType
  | 0 => ⟨"A", []⟩
  | n + 1 => ⟨"A", [.type (tower n)]⟩

namespace DataType

theorem nesting_tower (n : Nat) : (tower n).nesting = n := by
  induction n with
  | zero => rfl
  | succ n ih => simp [tower, nesting, DataTypeArg.allNesting, DataTypeArg.nesting, ih]

theorem wellFormed_tower (n : Nat) : (tower n).WellFormed := by
  induction n with
  | zero => trivial
  | succ n ih => exact ⟨ih, trivial⟩

theorem wellFormed_inTable {type : DataType} (h : type.WellFormed) : type.inTable.WellFormed := by
  simpa [inTable, Statement.WellFormed, CreateTable.WellFormed, TableElement.WellFormed,
    ColumnDefinition.WellFormed] using h

/-- The type of a column is read within every limit. -/
theorem parseDocument_inTable {type : DataType} (h : type.WellFormed) (limit : Nat) :
    parseDocument (sql type.inTable) limit = .ok [type.inTable] := by
  have hw := wellFormed_inTable h
  have none : type.inTable.levels = 0 := by
    simp [inTable, Statement.levels, CreateTable.levels, TableElement.levels, ColumnDefinition.levels,
      greatest, levelsIn]
  have read := Parse.Reads.ofText (Statement.printable (Statement.proper hw).legible)
    (Parse.reads_statements_single hw) limit
  exact read.1 (none ▸ zero_le)

end DataType

/-- Types are nested as deep as the source opens parentheses, and no limit makes a difference.  No type
anywhere in a document is nested deeper than that, and within every limit, even one that allows no levels at
all, types of every depth are accepted. -/
theorem nesting_le_openings (limit : Nat) :
    (∀ text statements, parseDocument text limit = .ok statements →
      ∃ tokens, tokenize text = .ok tokens ∧ ∀ statement ∈ statements, ∀ type ∈ statement.types,
        type.nesting ≤ openings tokens) ∧
    ∀ n, ∃ (statement : Statement) (type : DataType),
      parseDocument (sql statement) limit = .ok [statement] ∧ type ∈ statement.types ∧ type.nesting = n := by
  refine ⟨fun text statements h => ?_, fun n => ?_⟩
  · cases lexed : tokenize text with
    | error e => simp [parseDocument, Parse.ofText, lexed] at h
    | ok tokens => exact ⟨tokens, rfl, shallow_of_parseDocument lexed h⟩
  · exact ⟨_, .tower n, DataType.parseDocument_inTable (DataType.wellFormed_tower n) limit, by
      simp [DataType.inTable, Statement.types, CreateTable.types, TableElement.types,
        ColumnDefinition.types], DataType.nesting_tower n⟩

/-- Two types in one another inside a third one, where no level may be open. -/
theorem nesting_le_openings_column :
    ∃ statement, parseDocument "CREATE TABLE t (c A(B(C)))" 0 = .ok [statement] ∧
      (∃ type ∈ statement.types, type.nesting = 2) ∧
      ∃ tokens, tokenize "CREATE TABLE t (c A(B(C)))" = .ok tokens ∧
        ∀ type ∈ statement.types, type.nesting ≤ openings tokens := by
  let type : DataType := ⟨"A", [.type ⟨"B", [.type ⟨"C", []⟩]⟩]⟩
  have read : parseDocument "CREATE TABLE t (c A(B(C)))" 0 = .ok [type.inTable] := by cbv
  obtain ⟨tokens, lexed, shallow⟩ := (nesting_le_openings 0).1 _ _ read
  exact ⟨_, read, ⟨type, .head _, rfl⟩, tokens, lexed, shallow _ (.head _)⟩

end CanonicalSql
