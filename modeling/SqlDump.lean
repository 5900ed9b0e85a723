import SqlDump.Alter.Clause
import SqlDump.Alter.Header
import SqlDump.Client
import SqlDump.Client.Connection
import SqlDump.Client.Mysql
import SqlDump.Client.Sqlite
import SqlDump.Column.Basic
import SqlDump.Column.Parse
import SqlDump.Column.Token
import SqlDump.CommandLine.Arguments
import SqlDump.CommandLine.Run
import SqlDump.Comparison
import SqlDump.Definer
import SqlDump.Definer.Template
import SqlDump.Dependency
import SqlDump.Dump
import SqlDump.Failure
import SqlDump.Files
import SqlDump.Import
import SqlDump.Introspection
import SqlDump.Log
import SqlDump.Log.Logger
import SqlDump.Main
import SqlDump.Model
import SqlDump.Ordered
import SqlDump.Plan
import SqlDump.ReadError
import SqlDump.Settings.Basic
import SqlDump.Settings.Reading
import SqlDump.Statement
import SqlDump.Statement.Constraint
import SqlDump.Statement.CreateTable
import SqlDump.Statement.Insert
import SqlDump.Statement.Kind
import SqlDump.Statement.Segment
import SqlDump.Syntax.Identifier
import SqlDump.Syntax.Keyword
import SqlDump.Syntax.Literal
import SqlDump.Syntax.Nesting
import SqlDump.Table
import SqlDump.Text.Basic
import SqlDump.Text.Blank
import SqlDump.Text.CaseMap
import SqlDump.Text.Digit
import SqlDump.Text.Identifier
import SqlDump.Text.Lines
import SqlDump.Text.Numeral
import SqlDump.Text.Quoted
import SqlDump.Text.Ranges
import SqlDump.Text.Word
import SqlDump.Toml.Document
import SqlDump.Toml.Line
import SqlDump.Toml.Scalar
import SqlDump.Toml.Table
import SqlDump.Value
import SqlDump.Proofs.Sorting
import SqlDump.Proofs.Outcome
import SqlDump.Proofs.PlanOrder
import SqlDump.Proofs.Blanks
import SqlDump.Proofs.Characters
import SqlDump.Proofs.Models
import SqlDump.Proofs.Comparing
import SqlDump.Proofs.Arguments
import SqlDump.Proofs.Tokens
import SqlDump.Proofs.Definitions
import SqlDump.Proofs.Memberships
import SqlDump.Proofs.Rendering
import SqlDump.Proofs.Verdicts
import SqlDump.Proofs.BlankGroups
import SqlDump.Proofs.KeyLines
import SqlDump.Proofs.AlterTexts
import SqlDump.Proofs.Walks
import SqlDump.Proofs.Pieces
import SqlDump.Proofs.Layouts
import SqlDump.Proofs.Relocating
import SqlDump.Proofs.Marks
import SqlDump.Proofs.Counters
import SqlDump.Proofs.Stripping
import SqlDump.Proofs.Differences
import SqlDump.Proofs.PlanContents
import SqlDump.Proofs.Cuts
import SqlDump.Proofs.Segments
import SqlDump.Proofs.Regions
import SqlDump.Proofs.Splitting
import SqlDump.Proofs.Seams
import SqlDump.Proofs.PlanRuns
import SqlDump.Proofs.ReadingFirst
import SqlDump.Proofs.TableDrops
import SqlDump.Proofs.ViewDrops
import SqlDump.Proofs.Headers
import SqlDump.Proofs.OwnStatements
import SqlDump.Proofs.Cleaning
import SqlDump.Proofs.Strings
import SqlDump.Proofs.PlainTexts
import SqlDump.Proofs.StringData
import SqlDump.Proofs.TrailingComments
import SqlDump.Proofs.Scripts
import SqlDump.Proofs.ForeignKeys
import SqlDump.Proofs.ForeignWords
import SqlDump.Proofs.LeavingOut
import SqlDump.Proofs.Logs
import SqlDump.Proofs.Coherence
import SqlDump.Proofs.LiveTables
import SqlDump.Proofs.MissingColumns
import SqlDump.Proofs.RowStatements
import SqlDump.Proofs.NamedTables
import SqlDump.Proofs.ExistingTables
import SqlDump.Proofs.InsertRows
import SqlDump.Proofs.InsertTargets
import SqlDump.Proofs.ForeignStatements
import SqlDump.Proofs.Rests
import SqlDump.Proofs.ChangeStatements
import SqlDump.Proofs.RoutineRegions
import SqlDump.Proofs.StandingTokens
import SqlDump.Proofs.Attributes
import SqlDump.Proofs.Expressions
import SqlDump.Proofs.Checks
import SqlDump.Proofs.DividedBodies
import SqlDump.Proofs.Additions
import SqlDump.Proofs.Independence
import SqlDump.Proofs.Layers
import SqlDump.Proofs.Exclusions
import SqlDump.Proofs.Definers
import SqlDump.Proofs.Introspecting
import SqlDump.Proofs.CreateHeads
import SqlDump.Proofs.Unquoted
import SqlDump.Proofs.Groups
import SqlDump.Proofs.CleanLines
