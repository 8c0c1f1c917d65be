import RecordMapper.Codec
import RecordMapper.Database
import RecordMapper.Document.Written
import RecordMapper.Hydration
import RecordMapper.Index
import RecordMapper.Log
import RecordMapper.Plan.Select
import RecordMapper.Plan.Write
import RecordMapper.Policy
import RecordMapper.Proofs.Predicate.Expression
import RecordMapper.Proofs.Predicate.Lexing
import RecordMapper.Query
import RecordMapper.Record
import RecordMapper.Schema.Reconciliation
import RecordMapper.Session.Run
import RecordMapper.Settings
import RecordMapper.Shape
import RecordMapper.Store.State
import RecordMapper.Table
import RecordMapper.UnitOfWork
import RecordMapper.Proofs.Predicate.ConditionText
import RecordMapper.Proofs.Predicate.Evaluation
import RecordMapper.Proofs.Outcome
import RecordMapper.Proofs.Predicate.Meaning
import RecordMapper.Proofs.Unit.Script
import RecordMapper.Proofs.Unit.Atomicity
import RecordMapper.Proofs.Unit.Agreement
import RecordMapper.Proofs.Number.Rounded
import RecordMapper.Proofs.Store.Settling
import RecordMapper.Proofs.Store.Effects
import RecordMapper.Proofs.Store.Transaction
import RecordMapper.Proofs.Unit.Connection
import RecordMapper.Proofs.Hydration.Firsts
import RecordMapper.Proofs.Hydration.Grouping
import RecordMapper.Proofs.Hydration.Loading
import RecordMapper.Proofs.Hydration.Pushing
import RecordMapper.Proofs.Query.Combination
import RecordMapper.Proofs.Query.Rows
import RecordMapper.Proofs.Query.Built
import RecordMapper.Proofs.Query.Running
import RecordMapper.Proofs.Query.Identity
import RecordMapper.Proofs.Query.ObjectGraph
import RecordMapper.Proofs.Number.Patterns
import RecordMapper.Proofs.Store.Sameness
import RecordMapper.Proofs.Query.Counting
import RecordMapper.Proofs.Query.Writes
import RecordMapper.Proofs.Schema.Alignment
import RecordMapper.Proofs.Unit.Ensuring
import RecordMapper.Proofs.Schema.Idempotence
import RecordMapper.Proofs.Number.Exact
import RecordMapper.Proofs.Calendar.DayNumber
import RecordMapper.Proofs.Calendar.RoundTrip
import RecordMapper.Proofs.Record.Returning
import RecordMapper.Proofs.Store.Keys
import RecordMapper.Proofs.Predicate.StatementText
import RecordMapper.Proofs.Predicate.Conjunction
import RecordMapper.Proofs.Store.Readiness
import RecordMapper.Proofs.Query.Inserting
import RecordMapper.Proofs.Statement.Tokens
import RecordMapper.Proofs.Statement.Places
import RecordMapper.Proofs.Query.Selecting
import RecordMapper.Proofs.Query.Retrieval
import RecordMapper.Proofs.Query.Layout
import RecordMapper.Proofs.Statement.Parameters
import RecordMapper.Proofs.Unit.Containment
import RecordMapper.Proofs.Schema.Growth
import RecordMapper.Proofs.Store.Guarding
import RecordMapper.Proofs.Unit.Invariance
import RecordMapper.Proofs.Unit.Unwinding
import RecordMapper.Proofs.Schema.Indexing
import RecordMapper.Proofs.Unit.Asking
import RecordMapper.Proofs.Schema.Course
import RecordMapper.Proofs.Schema.Naming
import RecordMapper.Proofs.Store.Uniqueness
import RecordMapper.Proofs.Query.Separation
import RecordMapper.Proofs.Session.Requests
import RecordMapper.Proofs.Session.Histories
import RecordMapper.Proofs.Query.Misfits
import RecordMapper.Proofs.Schema.Nullability
import RecordMapper.Proofs.Calendar.Universal
import RecordMapper.Proofs.Statement.Literals
import RecordMapper.Proofs.Query.Scoping
import RecordMapper.Proofs.Unit.Lapsing
import RecordMapper.Proofs.Hydration.Records
import RecordMapper.Proofs.Predicate.Occurrence
import RecordMapper.Proofs.Schema.Decision
import RecordMapper.Proofs.Schema.Preorder
import RecordMapper.Proofs.Schema.Traversal
import RecordMapper.Proofs.Predicate.Formation
import RecordMapper.Proofs.Query.Refusal
import RecordMapper.Proofs.Query.Windows
import RecordMapper.Proofs.Statement.Quotes
import RecordMapper.Proofs.Statement.Wholeness
import RecordMapper.Proofs.Query.Answering
import RecordMapper.Proofs.Query.First
import RecordMapper.Proofs.Predicate.Membership
import RecordMapper.Proofs.Query.Filtering
import RecordMapper.Proofs.Calendar.Local
import RecordMapper.Proofs.Statement.Assignments
import RecordMapper.Proofs.Hydration.Reordering
import RecordMapper.Proofs.Query.Precedence
import RecordMapper.Proofs.Query.Ordering
import RecordMapper.Proofs.Record.Spelling
import RecordMapper.Proofs.Record.Exactness
import RecordMapper.Proofs.Schema.Description
import RecordMapper.Proofs.Record.Positions
import RecordMapper.Proofs.Hydration.Single
import RecordMapper.Proofs.Statement.Readings
import RecordMapper.Proofs.Statement.Definitions
import RecordMapper.Hashing
import RecordMapper.Proofs.Number.Keys
import RecordMapper.Proofs.Value.Hashing
import RecordMapper.Proofs.Statement.Identifiers
import RecordMapper.Proofs.Statement.NameLists
