import DynamicSql.Calendar.Clock
import DynamicSql.Calendar.Date
import DynamicSql.Calendar.Printer
import DynamicSql.Calendar.Reader
import DynamicSql.Decimal.Binary64
import DynamicSql.Decimal.Layout
import DynamicSql.Decimal.Reader
import DynamicSql.Decimal.Shortest
import DynamicSql.Dialect
import DynamicSql.Error
import DynamicSql.Exchange
import DynamicSql.Json.Basic
import DynamicSql.Json.Number
import DynamicSql.Json.Parser
import DynamicSql.Json.Printer
import DynamicSql.KeyMap
import DynamicSql.Query.Basic
import DynamicSql.Query.Build
import DynamicSql.Query.Operator
import DynamicSql.Query.TokenSource
import DynamicSql.Resolve.Basic
import DynamicSql.Resolve.Clause
import DynamicSql.Resolve.Column
import DynamicSql.Resolve.Output
import DynamicSql.Resolve.Query
import DynamicSql.Resolve.References
import DynamicSql.Row
import DynamicSql.Schema.Basic
import DynamicSql.Schema.Document
import DynamicSql.Settings.Basic
import DynamicSql.Settings.Document
import DynamicSql.Settings.Environment
import DynamicSql.Sql.Aliases
import DynamicSql.Sql.Fragment
import DynamicSql.Sql.Params
import DynamicSql.Sql.Path
import DynamicSql.Statement.Basic
import DynamicSql.Statement.Read
import DynamicSql.Statement.Template
import DynamicSql.Statement.Write
import DynamicSql.Text.Blank
import DynamicSql.Text.CaseTable
import DynamicSql.Text.Hex
import DynamicSql.Text.Inspect
import DynamicSql.Text.Lowercase
import DynamicSql.Text.Split
import DynamicSql.Text.Unprintable
import DynamicSql.Toml.Basic
import DynamicSql.Toml.Moment
import DynamicSql.Toml.Number
import DynamicSql.Toml.Parser
import DynamicSql.Toml.Text
import DynamicSql.Toml.Tree
import DynamicSql.Uuid
import DynamicSql.Value.Basic
import DynamicSql.Value.DateBound
import DynamicSql.Value.Document
import DynamicSql.Value.Members
import DynamicSql.Value.Text
import DynamicSql.Proofs.Resolve.Yields
import DynamicSql.Proofs.Resolve.Steps
import DynamicSql.Proofs.Sql.Readings
import DynamicSql.Proofs.Resolve.Landmarks
import DynamicSql.Proofs.Resolve.Operands
import DynamicSql.Proofs.Resolve.Realised
import DynamicSql.Proofs.Resolve.Freshness
import DynamicSql.Proofs.Sql.Params
import DynamicSql.Proofs.Sql.Placeholders
import DynamicSql.Proofs.Resolve.Clean
import DynamicSql.Proofs.Statement.Description
import DynamicSql.Proofs.Statement.Landmarks
import DynamicSql.Proofs.Statement.Realised
import DynamicSql.Proofs.Statement.Clean
import DynamicSql.Proofs.Resolve.OperandOrder
import DynamicSql.Proofs.Statement.Placeholders
import DynamicSql.Proofs.Resolve.Reachable
import DynamicSql.Proofs.Sql.Aliases
import DynamicSql.Proofs.Resolve.Claims
import DynamicSql.Proofs.Statement.Aliases
import DynamicSql.Proofs.Resolve.Agree
import DynamicSql.Proofs.Resolve.Blank
import DynamicSql.Proofs.Statement.Independence
import DynamicSql.Proofs.Resolve.Leaves
import DynamicSql.Proofs.Sql.Chars
import DynamicSql.Proofs.Sql.Nesting
import DynamicSql.Proofs.Sql.Words
import DynamicSql.Proofs.Sql.Formula
import DynamicSql.Proofs.Sql.Reading
import DynamicSql.Proofs.Sql.Conjunction
import DynamicSql.Proofs.Resolve.Names
import DynamicSql.Proofs.Resolve.Infix
import DynamicSql.Proofs.Resolve.Invariant
import DynamicSql.Proofs.Resolve.Upheld
import DynamicSql.Proofs.Resolve.Pieces
import DynamicSql.Proofs.Resolve.Omitted
import DynamicSql.Proofs.Resolve.Compounds
import DynamicSql.Proofs.Resolve.Plain
import DynamicSql.Proofs.Resolve.Atomic
import DynamicSql.Proofs.Resolve.Demands
import DynamicSql.Proofs.Resolve.Meaning
import DynamicSql.Proofs.Statement.Conditioned
import DynamicSql.Proofs.Statement.Qualifiers
import DynamicSql.Proofs.Statement.Unions
import DynamicSql.Proofs.Statement.Meaning
import DynamicSql.Proofs.Resolve.Shown
import DynamicSql.Proofs.Statement.Paging
import DynamicSql.Proofs.Sql.Mapping
import DynamicSql.Proofs.Sql.Renumber
import DynamicSql.Proofs.Resolve.Renumber
import DynamicSql.Proofs.Statement.Batches
import DynamicSql.Proofs.Resolve.Succeeds
import DynamicSql.Proofs.Resolve.Sound
import DynamicSql.Proofs.Statement.Success
import DynamicSql.Proofs.Resolve.Counting
import DynamicSql.Proofs.Statement.Counting
import DynamicSql.Proofs.Query.Calls
import DynamicSql.Proofs.Statement.Bindings
import DynamicSql.Proofs.Resolve.Coupled
import DynamicSql.Proofs.Resolve.Spelling
import DynamicSql.Proofs.Statement.Dialects
import DynamicSql.Proofs.Query.Renaming
import DynamicSql.Proofs.Sql.Renaming
import DynamicSql.Proofs.Resolve.Renaming
import DynamicSql.Proofs.Statement.Renaming
import DynamicSql.Proofs.Resolve.Joins
import DynamicSql.Proofs.Statement.Joins
import DynamicSql.Proofs.Text.Digits
import DynamicSql.Proofs.Text.Weave
import DynamicSql.Proofs.Statement.Positions
import DynamicSql.Proofs.Resolve.Expressions
import DynamicSql.Proofs.Json.RoundTrip
import DynamicSql.Proofs.Calendar.RoundTrip
import DynamicSql.Proofs.Value.RoundTrip
import DynamicSql.Proofs.Decimal.Rounding
import DynamicSql.Proofs.Value.Integers
import DynamicSql.Proofs.Dialect.Windows
import DynamicSql.Proofs.Exchange.Protocol
import DynamicSql.Proofs.Statement.ById
import DynamicSql.Proofs.Sql.Keyed
import DynamicSql.Proofs.Resolve.On
import DynamicSql.Proofs.Statement.On
import DynamicSql.Proofs.Schema.Names
import DynamicSql.Proofs.Resolve.Fields
import DynamicSql.Proofs.Statement.FieldRefs
import DynamicSql.Proofs.Statement.FieldNames
import DynamicSql.Proofs.Statement.Removed
import DynamicSql.Proofs.Value.Members
import DynamicSql.Proofs.Resolve.Listed
import DynamicSql.Proofs.Resolve.Memberships
import DynamicSql.Proofs.Statement.Memberships
import DynamicSql.Proofs.Dialect.Literals
import DynamicSql.Proofs.Statement.Inserts
import DynamicSql.Proofs.Statement.Bounds
import DynamicSql.Proofs.Text.Trim
import DynamicSql.Proofs.Value.DayBounds
import DynamicSql.Proofs.Settings.Layers
import DynamicSql.Proofs.Resolve.Modes
import DynamicSql.Proofs.Sql.AliasRequests
