import CanonicalSql.Document
import CanonicalSql.Proofs.Levels
import CanonicalSql.Proofs.Lexing.Piece
import CanonicalSql.Proofs.Levels.Finite
import CanonicalSql.Proofs.Lexing.Text
import CanonicalSql.Proofs.Reading.Alteration
import CanonicalSql.Proofs.Reading.Document
import CanonicalSql.Proofs.Course.Change
import CanonicalSql.Proofs.Course.Definition
import CanonicalSql.Proofs.Course.Statement
import CanonicalSql.Proofs.Constants
import CanonicalSql.Proofs.Nesting
import CanonicalSql.Proofs.Roundtrip
import CanonicalSql.Proofs.Shown
import CanonicalSql.Proofs.Lexing.Tiling
import CanonicalSql.Proofs.Places
import CanonicalSql.Proofs.Composition
import CanonicalSql.Proofs.TypeNesting
import CanonicalSql.Proofs.Layout
import CanonicalSql.Proofs.Json.Library
import CanonicalSql.Proofs.Completion.Change
import CanonicalSql.Proofs.Completion.Create
import CanonicalSql.Proofs.Completion.Alteration
import CanonicalSql.Proofs.Completion.Document
import CanonicalSql.Proofs.Progress.Expr
import CanonicalSql.Proofs.Progress.Loop
import CanonicalSql.Proofs.SetOperation
import CanonicalSql.Proofs.Interval
import CanonicalSql.Proofs.Quoting
import CanonicalSql.Proofs.Hosting.Expr
import CanonicalSql.Proofs.Hosting.Query
import CanonicalSql.Proofs.Grouping
import CanonicalSql.Proofs.MissingEnd
import CanonicalSql.Proofs.LongestNumber
import CanonicalSql.Proofs.Locality.Whole
