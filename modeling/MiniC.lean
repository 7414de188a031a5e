import MiniC.Assembly.Code
import MiniC.Assembly.Generator
import MiniC.Assembly.Instr
import MiniC.Assembly.Line
import MiniC.Command.Arguments
import MiniC.Command.Disk
import MiniC.Command.Host
import MiniC.Command.Linker
import MiniC.Command.Run
import MiniC.Command.Workspace
import MiniC.Diagnostic
import MiniC.Fault
import MiniC.Log
import MiniC.Main
import MiniC.Parse.Error
import MiniC.Parse.Expr
import MiniC.Parse.Literal
import MiniC.Parse.Program
import MiniC.Source.File
import MiniC.Source.Position
import MiniC.Text.Blank
import MiniC.Text.Bytes
import MiniC.Text.Column
import MiniC.Text.Quoted
import MiniC.Text.Visible
import MiniC.Token.Basic
import MiniC.Token.Buffer
import MiniC.Token.Lexer
import MiniC.Token.Scan
import MiniC.Token.Source
import MiniC.Translate
import MiniC.Tree.Basic
import MiniC.Tree.Print
import MiniC.Proofs.Assembly.Machine
import MiniC.Proofs.Tree.Evaluation
import MiniC.Proofs.Assembly.Arithmetic
import MiniC.Proofs.Assembly.Layout
import MiniC.Proofs.Assembly.Execution
import MiniC.Proofs.Text.Decimal
import MiniC.Proofs.Assembly.Reading
import MiniC.Proofs.Assembly.Compilation
import MiniC.Proofs.Parse.Grammar
import MiniC.Proofs.Parse.Course
import MiniC.Proofs.Parse.Supply
import MiniC.Proofs.Parse.Recognition
import MiniC.Proofs.Token.Scanning
import MiniC.Proofs.Token.Spacing
import MiniC.Proofs.Parse.Rendering
import MiniC.Proofs.Parse.RoundTrip
import MiniC.Proofs.Token.Class
import MiniC.Proofs.Token.Following
import MiniC.Proofs.Token.Layout
import MiniC.Proofs.Parse.Refusal
import MiniC.Proofs.Parse.Completion
import MiniC.Proofs.Assembly.Piece
import MiniC.Proofs.Assembly.Labels
import MiniC.Proofs.Assembly.WrittenLabels
import MiniC.Proofs.Assembly.Delivery
import MiniC.Proofs.Token.Observation
import MiniC.Proofs.Parse.Interchange
import MiniC.Proofs.Parse.Resumption
import MiniC.Proofs.Parse.Relayout
import MiniC.Proofs.Command.Disk
import MiniC.Proofs.Command.Outcome
import MiniC.Proofs.Command.Output
import MiniC.Proofs.Command.FrontEnd
import MiniC.Proofs.Parse.Numeral
import MiniC.Proofs.Assembly.Renaming
import MiniC.Proofs.Assembly.Interruption
import MiniC.Proofs.Assembly.TranslationUnit
import MiniC.Proofs.Source.Line
import MiniC.Proofs.Diagnostic
import MiniC.Proofs.Tree.Print
