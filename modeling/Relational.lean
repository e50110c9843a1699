import Relational.Answer
import Relational.CommandLine
import Relational.Condition
import Relational.Condition.Parser
import Relational.Console
import Relational.Disk
import Relational.Disk.Path
import Relational.Engine
import Relational.Error
import Relational.Json
import Relational.Json.Float
import Relational.Json.Reader
import Relational.Json.Token
import Relational.Main
import Relational.Number.Binary64
import Relational.Number.Decimal
import Relational.Number.Integer
import Relational.Number.Notation
import Relational.Operand
import Relational.Operator
import Relational.Ordered.Map
import Relational.Ordered.Merge
import Relational.Ordered.Search
import Relational.Ordered.Set
import Relational.Pattern
import Relational.Proofs.Condition.Column
import Relational.Proofs.Condition.Exact
import Relational.Proofs.Condition.Grammar
import Relational.Proofs.Condition.Leaf
import Relational.Proofs.Condition.Parser
import Relational.Proofs.Condition.Reading
import Relational.Proofs.Condition.Shown
import Relational.Proofs.Console.Lines
import Relational.Proofs.Console.Typed
import Relational.Proofs.Disk.Change
import Relational.Proofs.Disk.Walk
import Relational.Proofs.Engine.Constraint
import Relational.Proofs.Engine.CreateIndex
import Relational.Proofs.Engine.Created
import Relational.Proofs.Engine.Deleted
import Relational.Proofs.Engine.Extreme
import Relational.Proofs.Engine.Failure
import Relational.Proofs.Engine.Fault
import Relational.Proofs.Engine.Inserted
import Relational.Proofs.Engine.Joined
import Relational.Proofs.Engine.Listed
import Relational.Proofs.Engine.Negated
import Relational.Proofs.Engine.Order
import Relational.Proofs.Engine.Reopen
import Relational.Proofs.Engine.Returns
import Relational.Proofs.Engine.Run
import Relational.Proofs.Engine.Session
import Relational.Proofs.Engine.Sound
import Relational.Proofs.Json.Document
import Relational.Proofs.Json.Number
import Relational.Proofs.Json.Text
import Relational.Proofs.Number.Digits
import Relational.Proofs.Number.Mixed
import Relational.Proofs.Number.Rounding
import Relational.Proofs.Number.Shortest
import Relational.Proofs.Operand
import Relational.Proofs.Operand.Shown
import Relational.Proofs.Ordered.Lookup
import Relational.Proofs.Outcome
import Relational.Proofs.Pattern
import Relational.Proofs.Pattern.Local
import Relational.Proofs.Pattern.Reading
import Relational.Proofs.Query.Bare
import Relational.Proofs.Query.Choice
import Relational.Proofs.Query.Evaluation
import Relational.Proofs.Query.Extreme
import Relational.Proofs.Query.Fault
import Relational.Proofs.Query.Find
import Relational.Proofs.Query.Found
import Relational.Proofs.Query.Join
import Relational.Proofs.Query.Negation
import Relational.Proofs.Query.Part
import Relational.Proofs.Query.Reveal
import Relational.Proofs.Query.Scope
import Relational.Proofs.Schema
import Relational.Proofs.Schema.Definition
import Relational.Proofs.Schema.Field
import Relational.Proofs.Schema.Written
import Relational.Proofs.Script.Comment
import Relational.Proofs.Script.Joined
import Relational.Proofs.Script.Line
import Relational.Proofs.Script.Sentence
import Relational.Proofs.Script.Split
import Relational.Proofs.Statement.Clause
import Relational.Proofs.Statement.Exchange
import Relational.Proofs.Statement.Filter
import Relational.Proofs.Statement.Insertion
import Relational.Proofs.Statement.Kind
import Relational.Proofs.Statement.Names
import Relational.Proofs.Statement.Opening
import Relational.Proofs.Statement.Select
import Relational.Proofs.Statement.Written
import Relational.Proofs.Storage.Entry
import Relational.Proofs.Storage.Fault
import Relational.Proofs.Storage.FileName
import Relational.Proofs.Storage.IndexFile
import Relational.Proofs.Storage.Interruption
import Relational.Proofs.Storage.Mirror
import Relational.Proofs.Storage.Opened
import Relational.Proofs.Storage.Operation
import Relational.Proofs.Storage.Reopen
import Relational.Proofs.Storage.TableFile
import Relational.Proofs.Store.Insertion
import Relational.Proofs.Store.Operation
import Relational.Proofs.Table.Coherent
import Relational.Proofs.Table.Constraint
import Relational.Proofs.Table.History
import Relational.Proofs.Table.Index
import Relational.Proofs.Table.Order
import Relational.Proofs.Table.Rebuilt
import Relational.Proofs.Table.Sound
import Relational.Proofs.Text.Blank
import Relational.Proofs.Text.Grouped
import Relational.Proofs.Text.Item
import Relational.Proofs.Text.Keyword
import Relational.Proofs.Text.Quoted
import Relational.Proofs.Token.Boundary
import Relational.Proofs.Token.Scan
import Relational.Proofs.Token.Spaced
import Relational.Proofs.Token.Spelling
import Relational.Proofs.Value.Comparison
import Relational.Proofs.Value.Composite
import Relational.Proofs.Value.Exact
import Relational.Proofs.Value.Key
import Relational.Proofs.Value.Literal
import Relational.Proofs.Value.Order
import Relational.Proofs.Value.Stored
import Relational.Query.Aggregate
import Relational.Query.Evaluation
import Relational.Query.Join
import Relational.Query.Projection
import Relational.Query.Scope
import Relational.Query.Source
import Relational.Report
import Relational.Row
import Relational.Schema
import Relational.Schema.ColumnType
import Relational.Schema.Definition
import Relational.Script
import Relational.Session
import Relational.Statement
import Relational.Statement.Reader
import Relational.Storage
import Relational.Storage.IndexFile
import Relational.Storage.TableFile
import Relational.Store
import Relational.Table
import Relational.Table.Index
import Relational.Text.Added
import Relational.Text.Alphabetic
import Relational.Text.Blank
import Relational.Text.Bytes
import Relational.Text.Case
import Relational.Text.Cased
import Relational.Text.CodeRange
import Relational.Text.Escaped
import Relational.Text.Grouped
import Relational.Text.Keyword
import Relational.Text.Mark
import Relational.Text.Numeric
import Relational.Text.Printable
import Relational.Text.Quoted
import Relational.Text.Word
import Relational.Token
import Relational.Token.Lexer
import Relational.Value
import Relational.Value.Calculation
import Relational.Value.Json
import Relational.Value.Key
