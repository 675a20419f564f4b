import DeadBranch.Associations
import DeadBranch.Bind
import DeadBranch.Command.Arguments
import DeadBranch.Command.Failure
import DeadBranch.Command.Files
import DeadBranch.Command.Report
import DeadBranch.Command.Run
import DeadBranch.Diagnostic
import DeadBranch.Disk.Basic
import DeadBranch.Disk.Path
import DeadBranch.Evaluate
import DeadBranch.Failure
import DeadBranch.Fold
import DeadBranch.Glob
import DeadBranch.Log
import DeadBranch.Main
import DeadBranch.Number.Arith
import DeadBranch.Number.Basic
import DeadBranch.Number.Decimal
import DeadBranch.Number.Text
import DeadBranch.Parser.Closure
import DeadBranch.Parser.Expression
import DeadBranch.Parser.Pattern
import DeadBranch.Parser.Program
import DeadBranch.Parser.State
import DeadBranch.Parser.Statement
import DeadBranch.Path
import DeadBranch.Printer.Edges
import DeadBranch.Printer.Layout
import DeadBranch.Printer.Literal
import DeadBranch.Printer.Tree
import DeadBranch.Proofs.Again
import DeadBranch.Proofs.Arrangement
import DeadBranch.Proofs.Arrays
import DeadBranch.Proofs.Attachment
import DeadBranch.Proofs.Capture
import DeadBranch.Proofs.Clarity
import DeadBranch.Proofs.Collected
import DeadBranch.Proofs.Commuting
import DeadBranch.Proofs.Comparisons
import DeadBranch.Proofs.Completion
import DeadBranch.Proofs.Construction
import DeadBranch.Proofs.Conversion
import DeadBranch.Proofs.Coverage
import DeadBranch.Proofs.Decimals
import DeadBranch.Proofs.Deliveries
import DeadBranch.Proofs.Dependence
import DeadBranch.Proofs.Encoding
import DeadBranch.Proofs.Environments
import DeadBranch.Proofs.Execution
import DeadBranch.Proofs.Facts
import DeadBranch.Proofs.Footprint
import DeadBranch.Proofs.Fragments
import DeadBranch.Proofs.Globals
import DeadBranch.Proofs.Hoisting
import DeadBranch.Proofs.Idempotence
import DeadBranch.Proofs.Independence
import DeadBranch.Proofs.Invariance
import DeadBranch.Proofs.Keys
import DeadBranch.Proofs.Labels
import DeadBranch.Proofs.Leaves
import DeadBranch.Proofs.Lexical
import DeadBranch.Proofs.Lookups
import DeadBranch.Proofs.Meaning
import DeadBranch.Proofs.Members
import DeadBranch.Proofs.Mutation
import DeadBranch.Proofs.NumberTexts
import DeadBranch.Proofs.Numerals
import DeadBranch.Proofs.Objects
import DeadBranch.Proofs.Offsets
import DeadBranch.Proofs.OpenBlocks
import DeadBranch.Proofs.Operators
import DeadBranch.Proofs.Outline
import DeadBranch.Proofs.OutputDirectory
import DeadBranch.Proofs.Places
import DeadBranch.Proofs.PropertyKeys
import DeadBranch.Proofs.Pruned
import DeadBranch.Proofs.RadixDigits
import DeadBranch.Proofs.Ranges
import DeadBranch.Proofs.ReadExpressions
import DeadBranch.Proofs.ReadPrograms
import DeadBranch.Proofs.Readback
import DeadBranch.Proofs.Reading
import DeadBranch.Proofs.Reads
import DeadBranch.Proofs.Recording
import DeadBranch.Proofs.Residue
import DeadBranch.Proofs.Results
import DeadBranch.Proofs.Rounding
import DeadBranch.Proofs.ScopeTree
import DeadBranch.Proofs.Seats
import DeadBranch.Proofs.Settled
import DeadBranch.Proofs.ShortCircuit
import DeadBranch.Proofs.ShortestDigits
import DeadBranch.Proofs.Shown
import DeadBranch.Proofs.SideEffects
import DeadBranch.Proofs.Simulation
import DeadBranch.Proofs.Standing
import DeadBranch.Proofs.Statements
import DeadBranch.Proofs.Store
import DeadBranch.Proofs.Transformation
import DeadBranch.Proofs.Traversal
import DeadBranch.Proofs.Visibility
import DeadBranch.Proofs.WholeNumbers
import DeadBranch.Proofs.Widening
import DeadBranch.Proofs.Words
import DeadBranch.Scope.Graph
import DeadBranch.Scope.Tracker
import DeadBranch.Settings
import DeadBranch.Shrink
import DeadBranch.Source.Fault
import DeadBranch.Source.Location
import DeadBranch.Source.Read
import DeadBranch.Text.Blank
import DeadBranch.Text.Name
import DeadBranch.Text.NamePart
import DeadBranch.Text.NameStart
import DeadBranch.Text.Quoted
import DeadBranch.Text.Ranges
import DeadBranch.Text.Units
import DeadBranch.Text.Unseen
import DeadBranch.Text.Utf8
import DeadBranch.Token.Basic
import DeadBranch.Token.Nesting
import DeadBranch.Token.Number
import DeadBranch.Token.Scan
import DeadBranch.Token.Text
import DeadBranch.Toml.Basic
import DeadBranch.Toml.Read
import DeadBranch.Toml.Scalar
import DeadBranch.Transform
import DeadBranch.Tree.Basic
import DeadBranch.Tree.Walk
import DeadBranch.Value.Basic
import DeadBranch.Value.Operator
