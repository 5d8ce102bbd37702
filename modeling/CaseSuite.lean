import CaseSuite.CaseFile.Basic
import CaseSuite.CaseFile.Parse
import CaseSuite.CommandLine.Basic
import CaseSuite.CommandLine.Folder
import CaseSuite.Compile
import CaseSuite.Failure
import CaseSuite.Listing.Name
import CaseSuite.Listing.Page
import CaseSuite.Listing.Program
import CaseSuite.Main
import CaseSuite.Memory
import CaseSuite.Number.Binary64
import CaseSuite.Number.Digits
import CaseSuite.Number.Shortest
import CaseSuite.Number.Text
import CaseSuite.Plan.Basic
import CaseSuite.Plan.Planner
import CaseSuite.Proofs.Execution.Agreement
import CaseSuite.Proofs.Execution.Bodies
import CaseSuite.Proofs.Execution.Foresight
import CaseSuite.Proofs.Execution.Lowering
import CaseSuite.Proofs.Execution.Planning
import CaseSuite.Proofs.Execution.Progress
import CaseSuite.Proofs.Execution.Runtime
import CaseSuite.Proofs.Execution.Sequential
import CaseSuite.Proofs.Execution.Synchronous
import CaseSuite.Proofs.Execution.Turns
import CaseSuite.Proofs.Grammar.Phrases
import CaseSuite.Proofs.Grammar.Printing
import CaseSuite.Proofs.Grammar.Reading
import CaseSuite.Proofs.Terminal.Barrier
import CaseSuite.Proofs.Terminal.Ledger
import CaseSuite.Proofs.Terminal.Order
import CaseSuite.Relation
import CaseSuite.Report.Basic
import CaseSuite.Report.Excerpt
import CaseSuite.Report.Span
import CaseSuite.Run.Case
import CaseSuite.Run.Scope
import CaseSuite.Run.Suite
import CaseSuite.Run.Summary
import CaseSuite.Sample.ExitPaths
import CaseSuite.Terminal.Basic
import CaseSuite.Terminal.Call
import CaseSuite.Terminal.Console
import CaseSuite.Terminal.Database
import CaseSuite.Terminal.System
import CaseSuite.Terminal.Worker
import CaseSuite.Text.Blank
import CaseSuite.Text.Extending
import CaseSuite.Text.Plain
import CaseSuite.Text.Position
import CaseSuite.Text.Printable
import CaseSuite.Text.Quoted
import CaseSuite.Text.RangeTable
import CaseSuite.Text.Similarity
import CaseSuite.Text.Unseen
import CaseSuite.Text.Width
import CaseSuite.Token.Basic
import CaseSuite.Token.Scan
import CaseSuite.Value.Basic
import CaseSuite.Value.Check
import CaseSuite.Proofs.Scanning.Layout
import CaseSuite.Proofs.Grammar.Guidance
import CaseSuite.Proofs.Grammar.Refusals
import CaseSuite.Proofs.Grammar.Offence
import CaseSuite.Proofs.Terminal.Rounds
import CaseSuite.Proofs.Terminal.Stored
import CaseSuite.Proofs.Execution.Service
import CaseSuite.Proofs.Execution.Teardown
import CaseSuite.Proofs.Execution.Chronicle
import CaseSuite.Proofs.Execution.Succession
import CaseSuite.Proofs.Text.Literals
import CaseSuite.Proofs.Listing.Rendering
import CaseSuite.Proofs.Listing.Sources
import CaseSuite.Proofs.Listing.Configuration
import CaseSuite.Proofs.Number.Rounding
import CaseSuite.Proofs.Number.Spelling
import CaseSuite.Proofs.Listing.Legible
import CaseSuite.Proofs.Terminal.Exit
import CaseSuite.Proofs.Execution.Scripted
import CaseSuite.Proofs.Execution.Answers
import CaseSuite.Proofs.Execution.Asking
import CaseSuite.Proofs.Execution.Evaluation
import CaseSuite.Proofs.Scanning.Respacing
import CaseSuite.Proofs.Grammar.Placeless
import CaseSuite.Proofs.Reporting.Caret
import CaseSuite.Proofs.Execution.Deadlock
import CaseSuite.Proofs.Terminal.Log
import CaseSuite.Proofs.Scanning.Delimiters
import CaseSuite.Proofs.Scanning.Lexemes
import CaseSuite.Proofs.Scanning.Conformance
import CaseSuite.Proofs.Scanning.Strings
import CaseSuite.Proofs.Scanning.Joining
import CaseSuite.Proofs.Scanning.Streaming
import CaseSuite.Proofs.Number.Quantities
import CaseSuite.Proofs.Value.Equality
import CaseSuite.Proofs.Planning.Names
import CaseSuite.Proofs.Planning.Temporaries
import CaseSuite.Proofs.Planning.Hygiene
import CaseSuite.Proofs.Number.Overflow
import CaseSuite.Proofs.Listing.Naming
import CaseSuite.Proofs.Number.Range
import CaseSuite.Proofs.Planning.Acceptance
import CaseSuite.Proofs.Planning.Functions
import CaseSuite.Proofs.Reporting.Highlight
import CaseSuite.Proofs.Value.Display
import CaseSuite.Proofs.Text.Layout
import CaseSuite.Proofs.Listing.Indentation
import CaseSuite.Proofs.Text.Fences
import CaseSuite.Proofs.Terminal.Pending
import CaseSuite.Proofs.Planning.Integers
