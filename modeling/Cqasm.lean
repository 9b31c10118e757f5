import Cqasm.Analysis.Program
import Cqasm.Diagnostic.Basic
import Cqasm.Dialect.Basic
import Cqasm.Location
import Cqasm.Overload.Resolve
import Cqasm.Overload.Table
import Cqasm.Proofs.Analysis.Environment
import Cqasm.Proofs.Symbol.Arena
import Cqasm.Report.Render
import Cqasm.Symbol.Script
import Cqasm.Text.Character
import Cqasm.Text.LowerCase
import Cqasm.Ty.Promotion
import Cqasm.Typed.ConstInt
import Cqasm.Typed.IndexRange
import Cqasm.Typed.Resolution
import Cqasm.Proofs.Analysis.Site
import Cqasm.Proofs.Scoping.Resolver
import Cqasm.Proofs.Analysis.Logs
import Cqasm.Proofs.Analysis.Causes
import Cqasm.Proofs.Scoping.Lexical
import Cqasm.Proofs.Analysis.Check
import Cqasm.Proofs.Typed.Elements
import Cqasm.Proofs.Analysis.Indexed
import Cqasm.Proofs.Analysis.Folded
import Cqasm.Proofs.Typed.Consistent
import Cqasm.Proofs.Typed.Rules
import Cqasm.Proofs.Analysis.Constant
import Cqasm.Proofs.Analysis.Entries
import Cqasm.Proofs.Dialect.Tables
import Cqasm.Proofs.Typed.Resolved
import Cqasm.Proofs.Typed.FullyResolved
import Cqasm.Proofs.Analysis.Validity
import Cqasm.Proofs.Overload.Separation
import Cqasm.Proofs.Overload.Applicable
import Cqasm.Proofs.Overload.Dominance
import Cqasm.Proofs.Overload.Winner
import Cqasm.Proofs.Overload.Contenders
import Cqasm.Proofs.Overload.Ambiguity
import Cqasm.Proofs.Overload.Registration
import Cqasm.Proofs.Overload.Grouping
import Cqasm.Proofs.Overload.Parameters
import Cqasm.Proofs.Overload.Undefined
import Cqasm.Proofs.Ty.Rank
import Cqasm.Proofs.Analysis.Recorded
import Cqasm.Proofs.Dialect.Unambiguous
import Cqasm.Proofs.Symbol.Stack
import Cqasm.Proofs.Symbol.Refinement
import Cqasm.Proofs.Symbol.Guard
import Cqasm.Proofs.Report.Counting
import Cqasm.Proofs.Ty.Display
import Cqasm.Proofs.Typed.Occurrences
import Cqasm.Proofs.Typed.Numbering
import Cqasm.Proofs.Scoping.Blocks
import Cqasm.Proofs.Analysis.Declarative
import Cqasm.Proofs.Symbol.Renaming
import Cqasm.Proofs.Scoping.Renaming
import Cqasm.Proofs.Dialect.Extension
import Cqasm.Proofs.Analysis.Conservative
import Cqasm.Proofs.Analysis.Own
import Cqasm.Proofs.Analysis.Selection
import Cqasm.Proofs.Analysis.Failures
import Cqasm.Proofs.Analysis.Calls
import Cqasm.Proofs.Typed.Outline
import Cqasm.Proofs.Typed.Walk
import Cqasm.Proofs.Typed.Reported
import Cqasm.Proofs.Typed.Unseen
import Cqasm.Proofs.Scoping.FirstWins
import Cqasm.Proofs.Scoping.Duplicates
import Cqasm.Proofs.Analysis.Execution
import Cqasm.Proofs.Scoping.LoopControl
import Cqasm.Proofs.Analysis.Warnings
import Cqasm.Proofs.Analysis.Located
import Cqasm.Proofs.Analysis.Version
import Cqasm.Proofs.Analysis.Incremental
import Cqasm.Proofs.Analysis.Gap
import Cqasm.Proofs.Analysis.Independent
import Cqasm.Proofs.Typed.Spelling
import Cqasm.Proofs.Analysis.Spelling
import Cqasm.Proofs.Analysis.Reached
import Cqasm.Proofs.Symbol.Named
import Cqasm.Proofs.Typed.Kinds
import Cqasm.Proofs.Checked.Basic
import Cqasm.Proofs.Checked.Table
import Cqasm.Proofs.Checked.Folding
import Cqasm.Proofs.Checked.Size
import Cqasm.Proofs.Checked.Dialect
import Cqasm.Proofs.Checked.Expr
import Cqasm.Proofs.Checked.Stmt
import Cqasm.Proofs.Checked.Program
import Cqasm.Proofs.Typed.Expansion
import Cqasm.Proofs.Typed.Addresses
import Cqasm.Proofs.Analysis.Subtree
import Cqasm.Proofs.Symbol.Regular
import Cqasm.Proofs.Symbol.Store
