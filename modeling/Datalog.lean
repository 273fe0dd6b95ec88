import Datalog.CommandLine.FileSystem
import Datalog.CommandLine.LogFilter
import Datalog.CommandLine.Options
import Datalog.CommandLine.Run
import Datalog.CommandLine.Usage
import Datalog.Event
import Datalog.Grammar.Clause
import Datalog.Grammar.Fault
import Datalog.Grammar.Layout
import Datalog.Grammar.Lexeme
import Datalog.Grammar.Phrase
import Datalog.Grammar.Production
import Datalog.Grammar.Statement
import Datalog.Grammar.Trail
import Datalog.Interning
import Datalog.Main
import Datalog.Pattern.Bracket
import Datalog.Pattern.Flags
import Datalog.Pattern.Reading
import Datalog.Pattern.Sign
import Datalog.Program.Basic
import Datalog.Program.Equality
import Datalog.Program.Printer
import Datalog.Proofs.Acceptance
import Datalog.Proofs.Accounting
import Datalog.Proofs.Canonical
import Datalog.Proofs.Diagnostics
import Datalog.Proofs.Expectation
import Datalog.Proofs.Grammar.Alternatives
import Datalog.Proofs.Grammar.Closure
import Datalog.Proofs.Grammar.Completeness
import Datalog.Proofs.Grammar.Constants
import Datalog.Proofs.Grammar.Derivation
import Datalog.Proofs.Grammar.Layout
import Datalog.Proofs.Grammar.Lexical
import Datalog.Proofs.Grammar.Reading
import Datalog.Proofs.Grammar.Recursion
import Datalog.Proofs.Grammar.Sequences
import Datalog.Proofs.Grammar.SingleClause
import Datalog.Proofs.Grammar.Soundness
import Datalog.Proofs.Grammar.Starts
import Datalog.Proofs.Grammar.Unambiguity
import Datalog.Proofs.Independence
import Datalog.Proofs.Interning
import Datalog.Proofs.Isolation
import Datalog.Proofs.Isolation.Lexeme
import Datalog.Proofs.Isolation.Phrase
import Datalog.Proofs.Isolation.Places
import Datalog.Proofs.Isolation.Remark
import Datalog.Proofs.Isolation.Statement
import Datalog.Proofs.Isolation.Trail
import Datalog.Proofs.Isolation.Unstopped
import Datalog.Proofs.Misreading
import Datalog.Proofs.Nodes.Building
import Datalog.Proofs.Nodes.Clause
import Datalog.Proofs.Nodes.Mirror
import Datalog.Proofs.Nodes.Taking
import Datalog.Proofs.NumberConstants
import Datalog.Proofs.Preferences
import Datalog.Proofs.PrintedEquality
import Datalog.Proofs.PrintedLines
import Datalog.Proofs.Printer.Clause
import Datalog.Proofs.Printer.Derived
import Datalog.Proofs.Printer.Lines
import Datalog.Proofs.Printer.Program
import Datalog.Proofs.Printer.WellFormed
import Datalog.Proofs.Program.Congruence
import Datalog.Proofs.Program.Content
import Datalog.Proofs.Program.Log
import Datalog.Proofs.Program.Operations
import Datalog.Proofs.Resumption
import Datalog.Proofs.RoundTrip
import Datalog.Proofs.Rules.Layout
import Datalog.Proofs.Rules.Lexical
import Datalog.Proofs.Rules.Phrase
import Datalog.Proofs.Rules.Recorded
import Datalog.Proofs.Rules.Run
import Datalog.Proofs.Rules.Statement
import Datalog.Proofs.Rules.Written
import Datalog.Proofs.Seam.Declared
import Datalog.Proofs.Seam.Lexeme
import Datalog.Proofs.Seam.Lines
import Datalog.Proofs.Seam.Phrase
import Datalog.Proofs.Seam.Reading
import Datalog.Proofs.Seam.Statement
import Datalog.Proofs.Segment.Elements
import Datalog.Proofs.Segment.Faults
import Datalog.Proofs.Segment.Meaning
import Datalog.Proofs.Segment.Names
import Datalog.Proofs.Segment.Order
import Datalog.Proofs.Segment.Progress
import Datalog.Proofs.Segment.Scan
import Datalog.Proofs.Segment.Splitting
import Datalog.Proofs.Segment.Statements
import Datalog.Proofs.Session
import Datalog.Proofs.Session.Validity
import Datalog.Proofs.SingleClause
import Datalog.Proofs.Symbol.Issued
import Datalog.Proofs.Symbol.Numbers
import Datalog.Proofs.Terminator
import Datalog.Proofs.Text.Decimal
import Datalog.Proofs.Text.Escaping
import Datalog.Proofs.Text.Place
import Datalog.Proofs.Text.Quoted
import Datalog.Proofs.Totality
import Datalog.Proofs.TranslationUnit.Contents
import Datalog.Proofs.TranslationUnit.Listing
import Datalog.Proofs.TranslationUnit.Literals
import Datalog.Proofs.TranslationUnit.Remarks
import Datalog.Proofs.TranslationUnit.Report
import Datalog.Proofs.TranslationUnit.Symbols
import Datalog.Proofs.TranslationUnit.Tally
import Datalog.Proofs.Tree.Constants
import Datalog.Proofs.Tree.Equality
import Datalog.Proofs.Viability.Clause
import Datalog.Proofs.Viability.Form
import Datalog.Proofs.Viability.Phrase
import Datalog.Proofs.ViablePrefix
import Datalog.Proofs.Workspace
import Datalog.Recovery
import Datalog.Relation
import Datalog.Report.Debug
import Datalog.Report.Diagnostic
import Datalog.Segment
import Datalog.Session
import Datalog.Symbol.Store
import Datalog.Symbol.Table
import Datalog.Text.Alphanumeric
import Datalog.Text.Blank
import Datalog.Text.Decimal
import Datalog.Text.Floating
import Datalog.Text.Likeness
import Datalog.Text.Place
import Datalog.Text.Quoted
import Datalog.Text.Shown
import Datalog.TranslationUnit
import Datalog.Tree.Basic
import Datalog.Tree.Constants
import Datalog.Tree.Equality
import Datalog.Tree.Printer
