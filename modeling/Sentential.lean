import Sentential.Alphabet
import Sentential.Assignment
import Sentential.CommandLine.Arguments
import Sentential.CommandLine.Report
import Sentential.Compilation
import Sentential.Connective
import Sentential.FileTree
import Sentential.Formula
import Sentential.FormulaGraph.Basic
import Sentential.FormulaGraph.Builder
import Sentential.FormulaGraph.Layout
import Sentential.FormulaGraph.Page
import Sentential.FormulaGraph.Plot
import Sentential.FormulaGraph.Replay
import Sentential.Frame
import Sentential.Library.Frames
import Sentential.Library.Pages
import Sentential.Library.Random
import Sentential.Listing
import Sentential.Machine
import Sentential.Main
import Sentential.Number.Binary
import Sentential.Number.Decimal
import Sentential.Number.Numeral
import Sentential.Number.Shortest
import Sentential.Program
import Sentential.Proofs.Acceptance
import Sentential.Proofs.Assignment
import Sentential.Proofs.Assignment.Enumeration
import Sentential.Proofs.CommandLine.Arguments
import Sentential.Proofs.CommandLine.Report
import Sentential.Proofs.Compiler.Conservation
import Sentential.Proofs.Compiler.Group
import Sentential.Proofs.Compiler.Operands
import Sentential.Proofs.Compiler.Outcome
import Sentential.Proofs.Compiler.Precedence
import Sentential.Proofs.Compiler.Run
import Sentential.Proofs.Compiler.Staircase
import Sentential.Proofs.Compiler.Trailing
import Sentential.Proofs.Compiler.Trailing.Biconditional
import Sentential.Proofs.Compiler.Waiting
import Sentential.Proofs.Dialect
import Sentential.Proofs.FileTree
import Sentential.Proofs.FormulaGraph.Builder
import Sentential.Proofs.FormulaGraph.Height
import Sentential.Proofs.FormulaGraph.Layout
import Sentential.Proofs.FormulaGraph.Layout.Descent
import Sentential.Proofs.FormulaGraph.Layout.Separation
import Sentential.Proofs.FormulaGraph.Page
import Sentential.Proofs.FormulaGraph.Page.Saving
import Sentential.Proofs.FormulaGraph.Replay
import Sentential.Proofs.FormulaGraph.Tree
import Sentential.Proofs.FormulaGraph.Value
import Sentential.Proofs.Frame
import Sentential.Proofs.Frame.Columns
import Sentential.Proofs.Grammar
import Sentential.Proofs.Library.Frames
import Sentential.Proofs.Library.Pages
import Sentential.Proofs.Machine
import Sentential.Proofs.Machine.Missing
import Sentential.Proofs.PostfixText
import Sentential.Proofs.Program
import Sentential.Proofs.Quantified.Inquiry
import Sentential.Proofs.Quantified.Query
import Sentential.Proofs.Refusal
import Sentential.Proofs.Region.Classification
import Sentential.Proofs.Region.Picture
import Sentential.Proofs.Region.Shading
import Sentential.Proofs.Renaming
import Sentential.Proofs.Retokenizing
import Sentential.Proofs.Retokenizing.Words
import Sentential.Proofs.Scan
import Sentential.Proofs.Scan.Words
import Sentential.Proofs.Shadowing
import Sentential.Proofs.Spacing
import Sentential.Proofs.Spelling
import Sentential.Proofs.Splitting
import Sentential.Proofs.Symbol
import Sentential.Proofs.Text.Blank
import Sentential.Proofs.Text.Cut
import Sentential.Proofs.Text.Letter
import Sentential.Proofs.Text.Run
import Sentential.Proofs.Text.Scan
import Sentential.Proofs.Text.Substitution
import Sentential.Proofs.Text.Template
import Sentential.Proofs.Token
import Sentential.Proofs.TruthTable
import Sentential.Proofs.TruthTable.Views
import Sentential.Proofs.Writing
import Sentential.Proofs.Writing.Words
import Sentential.Quantified.Predicate
import Sentential.Quantified.Query
import Sentential.Quantified.World
import Sentential.Region.Basic
import Sentential.Region.Classification
import Sentential.Region.Disk
import Sentential.Region.Drawing
import Sentential.Region.Labels
import Sentential.Region.Picture
import Sentential.Region.Shading
import Sentential.Spelling
import Sentential.Surface
import Sentential.Text.Blank
import Sentential.Text.CharRange
import Sentential.Text.Digit
import Sentential.Text.Identifier
import Sentential.Text.LetterCase
import Sentential.Text.Printable
import Sentential.Text.Quoted
import Sentential.Text.Substitution
import Sentential.Text.Template
import Sentential.Text.TruthLetter
import Sentential.Text.WordChar
import Sentential.Token
import Sentential.TruthTable
import Sentential.Value
