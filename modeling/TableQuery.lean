import TableQuery.Text.Basic
import TableQuery.Text.Unicode
import TableQuery.Text.Quoted
import TableQuery.Decimal.Layout
import TableQuery.Decimal.Literal
import TableQuery.Json.Printer
import TableQuery.Json.Decoder
import TableQuery.Sql.Value
import TableQuery.Failure
import TableQuery.Sql.Query
import TableQuery.DataPath
import TableQuery.Schema.Encoding
import TableQuery.Search.Filter
import TableQuery.Column.Kind
import TableQuery.Table
import TableQuery.Request
import TableQuery.Plan.Compiled
import TableQuery.Execution.Cache
import TableQuery.Execution.Page
import TableQuery.Proofs.Outcome
import TableQuery.Proofs.Sql.Names
import TableQuery.Proofs.Sql.Printing
import TableQuery.Proofs.Sql.Placeholders
import TableQuery.Proofs.Search.ParamNames
import TableQuery.Proofs.Plan.Queries
import TableQuery.Proofs.Plan.ParamNames
import TableQuery.Proofs.Sql.Reading
import TableQuery.Proofs.Sql.Conditions
import TableQuery.Proofs.Keyed
import TableQuery.Proofs.Plan.Joins
import TableQuery.Proofs.Hydration.Grouping
import TableQuery.Proofs.Hydration.JoinTree
import TableQuery.Proofs.Hydration.Nested
import TableQuery.Proofs.Execution.Fetch
import TableQuery.Proofs.Execution.Provenance
import TableQuery.Proofs.Hydration.Paging
import TableQuery.Proofs.Plan.Aliases
import TableQuery.Proofs.Sql.Alternatives
import TableQuery.Proofs.Sql.Narrowing
import TableQuery.Proofs.Plan.Narrowing
import TableQuery.Proofs.Plan.CacheKeys
import TableQuery.Proofs.Plan.Calls
import TableQuery.Proofs.Execution.Transparency
import TableQuery.Proofs.Column.Registered
import TableQuery.Proofs.Plan.Routes
import TableQuery.Proofs.Hydration.Nodes
import TableQuery.Proofs.Hydration.Labels
import TableQuery.Proofs.DataPath
import TableQuery.Proofs.Column.Positions
import TableQuery.Proofs.Sql.JoinConditions
import TableQuery.Proofs.Plan.Scope
import TableQuery.Proofs.Text.Blank
import TableQuery.Proofs.Plan.Naming
import TableQuery.Proofs.Plan.Serving
import TableQuery.Proofs.Hydration.Selections
import TableQuery.Proofs.Hydration.Values
import TableQuery.Proofs.Plan.TidyNames
import TableQuery.Proofs.Hydration.Keys
import TableQuery.Proofs.Plan.Abilities
import TableQuery.Proofs.Plan.Counts
import TableQuery.Proofs.Sql.Shapes
import TableQuery.Proofs.Plan.SearchTexts
import TableQuery.Proofs.Plan.Entities
import TableQuery.Proofs.Plan.Overrides
import TableQuery.Proofs.Search.Coercion
import TableQuery.Proofs.Plan.Coercion
import TableQuery.Proofs.Plan.JoinOrder
import TableQuery.Proofs.Sql.Disjunctions
import TableQuery.Proofs.Sql.Admission
import TableQuery.Proofs.Plan.GlobalSearch
import TableQuery.Proofs.Plan.Searchable
import TableQuery.Proofs.DataPath.Rendering
import TableQuery.Proofs.Plan.CountWindows
import TableQuery.Proofs.Execution.Responses
import TableQuery.Proofs.Decimal.Literal
import TableQuery.Proofs.Text.Split
import TableQuery.Proofs.Calendar.Pattern
import TableQuery.Proofs.Search.Ranges
import TableQuery.Proofs.Search.Lists
import TableQuery.Proofs.Search.Counters
import TableQuery.Proofs.Text.Words
import TableQuery.Proofs.Sql.Literals
import TableQuery.Proofs.Options
import TableQuery.Proofs.Sql.SelectItems
import TableQuery.Proofs.Sql.OperatorSearch
import TableQuery.Proofs.Sql.ConditionTexts
import TableQuery.Proofs.Sql.LiteralOperands
import TableQuery.Proofs.Sql.Targets
import TableQuery.Proofs.Sql.Templates
import TableQuery.Proofs.Json.Respelling
import TableQuery.Proofs.Request
