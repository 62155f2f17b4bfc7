import SchemaEvolution.Calendar.Date
import SchemaEvolution.Calendar.Instant
import SchemaEvolution.Ddl.Basic
import SchemaEvolution.Ddl.ColumnPlan
import SchemaEvolution.Ddl.TablePlan
import SchemaEvolution.Ddl.Target
import SchemaEvolution.Dialect.Ansi
import SchemaEvolution.Dialect.Basic
import SchemaEvolution.Dialect.ExprText
import SchemaEvolution.Dialect.NuoDb
import SchemaEvolution.Json.Basic
import SchemaEvolution.Json.Magnitude
import SchemaEvolution.Json.Parser
import SchemaEvolution.Json.Printer
import SchemaEvolution.Json.Record
import SchemaEvolution.Json.Token
import SchemaEvolution.Proofs.Calendar.Instant
import SchemaEvolution.Proofs.Calendar.Months
import SchemaEvolution.Proofs.Ddl.ColumnIndexes
import SchemaEvolution.Proofs.Ddl.ColumnState
import SchemaEvolution.Proofs.Ddl.IdleDefaults
import SchemaEvolution.Proofs.Ddl.IndexLifecycle
import SchemaEvolution.Proofs.Ddl.KeyLifecycle
import SchemaEvolution.Proofs.Ddl.LiveSequences
import SchemaEvolution.Proofs.Ddl.SequenceLifecycle
import SchemaEvolution.Proofs.Ddl.SparedDefaults
import SchemaEvolution.Proofs.Ddl.TableKey
import SchemaEvolution.Proofs.Json.Omission
import SchemaEvolution.Proofs.Json.RoundTrip
import SchemaEvolution.Proofs.Json.Words
import SchemaEvolution.Proofs.Schema.Faults
import SchemaEvolution.Proofs.Schema.Format
import SchemaEvolution.Proofs.Schema.Identity
import SchemaEvolution.Proofs.Schema.PrimaryKey
import SchemaEvolution.Proofs.Schema.Table
import SchemaEvolution.Proofs.Schema.Validity
import SchemaEvolution.Proofs.Session.TemporaryTables
import SchemaEvolution.Proofs.Sql.Aliases
import SchemaEvolution.Proofs.Sql.AnsiArithmetic
import SchemaEvolution.Proofs.Sql.Arithmetic
import SchemaEvolution.Proofs.Sql.ArithmeticText
import SchemaEvolution.Proofs.Sql.BooleanStructure
import SchemaEvolution.Proofs.Sql.ClosedTexts
import SchemaEvolution.Proofs.Sql.ExactNumbers
import SchemaEvolution.Proofs.Sql.Expressions
import SchemaEvolution.Proofs.Sql.LeftPad
import SchemaEvolution.Proofs.Sql.Lexemes
import SchemaEvolution.Proofs.Sql.Lexer
import SchemaEvolution.Proofs.Sql.LiteralRule
import SchemaEvolution.Proofs.Sql.Literals
import SchemaEvolution.Proofs.Sql.MonthsBetween
import SchemaEvolution.Proofs.Sql.NuoDbArithmetic
import SchemaEvolution.Proofs.Sql.Operands
import SchemaEvolution.Proofs.Sql.Portability
import SchemaEvolution.Proofs.Sql.Precedence
import SchemaEvolution.Proofs.Sql.ScalarText
import SchemaEvolution.Proofs.Sql.Scalars
import SchemaEvolution.Proofs.Sql.SearchCondition
import SchemaEvolution.Proofs.Sql.Skeleton
import SchemaEvolution.Proofs.Sql.SplicedStrings
import SchemaEvolution.Proofs.Sql.Statements
import SchemaEvolution.Proofs.Sql.StringText
import SchemaEvolution.Proofs.Sql.Strings
import SchemaEvolution.Proofs.Sql.Words
import SchemaEvolution.Proofs.Sql.Writability
import SchemaEvolution.Proofs.Support.Outcome
import SchemaEvolution.Proofs.Text.Digits
import SchemaEvolution.Proofs.Text.Numeral
import SchemaEvolution.Proofs.Upgrade.Acceptance
import SchemaEvolution.Proofs.Upgrade.Atomicity
import SchemaEvolution.Proofs.Upgrade.Calls
import SchemaEvolution.Proofs.Upgrade.FailedSteps
import SchemaEvolution.Proofs.Upgrade.Format
import SchemaEvolution.Proofs.Upgrade.Independence
import SchemaEvolution.Proofs.Upgrade.KeyOrder
import SchemaEvolution.Proofs.Upgrade.Omission
import SchemaEvolution.Proofs.Upgrade.Plans
import SchemaEvolution.Proofs.Upgrade.Resume
import SchemaEvolution.Proofs.Upgrade.Runner
import SchemaEvolution.Proofs.Upgrade.SequenceOwnership
import SchemaEvolution.Proofs.Upgrade.Sequences
import SchemaEvolution.Proofs.Upgrade.Snapshot
import SchemaEvolution.Proofs.Upgrade.TemporaryTables
import SchemaEvolution.Proofs.Upgrade.Undo
import SchemaEvolution.Query.Criterion
import SchemaEvolution.Query.Expr
import SchemaEvolution.Query.Statement
import SchemaEvolution.RenderError
import SchemaEvolution.Schema.Basic
import SchemaEvolution.Schema.Change
import SchemaEvolution.Schema.Format
import SchemaEvolution.Schema.Table
import SchemaEvolution.Session.Basic
import SchemaEvolution.Session.Request
import SchemaEvolution.Session.StatementText
import SchemaEvolution.Text.Basic
import SchemaEvolution.Text.UpperCase
import SchemaEvolution.Upgrade.Format
import SchemaEvolution.Upgrade.Runner
import SchemaEvolution.Upgrade.Snapshot
import SchemaEvolution.Upgrade.Step
