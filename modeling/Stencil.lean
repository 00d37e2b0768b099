import Stencil.Cursor.Session
import Stencil.Environment.Session
import Stencil.Expr.Normal
import Stencil.Grammar
import Stencil.Main
import Stencil.Printer
import Stencil.Proofs.Scanner.Walk
import Stencil.Stream
import Stencil.Template.Session
import Stencil.Proofs.Grammar.Segments
import Stencil.Proofs.Printer.RoundTrip
import Stencil.Proofs.Stream.Agreement
import Stencil.Proofs.Stream.Splitting
import Stencil.Proofs.Log.Segmentation
import Stencil.Proofs.Stream.Emission
import Stencil.Proofs.Decimal.Numerals
import Stencil.Proofs.Environment.LastWrite
import Stencil.Proofs.Environment.Values
import Stencil.Proofs.Json.Reads
import Stencil.Proofs.Environment.Agreement
import Stencil.Proofs.Environment.RoundTrip
import Stencil.Proofs.Template.Memoization
import Stencil.Proofs.Evaluation.Verbatim
import Stencil.Proofs.Environment.Positions
import Stencil.Proofs.Command.Layers
import Stencil.Proofs.Command.Hosts
import Stencil.Proofs.Command.Files
import Stencil.Proofs.Command.Production
import Stencil.Proofs.Command.Spelling
import Stencil.Proofs.Command.Effects
import Stencil.Proofs.Evaluation.Equivalence
import Stencil.Proofs.Evaluation.PlainText
import Stencil.Proofs.Stream.Concatenation
import Stencil.Proofs.Scanner.Conservation
import Stencil.Proofs.Stream.Renaming
import Stencil.Proofs.Environment.History
import Stencil.Proofs.Evaluation.Positional
import Stencil.Proofs.Expr.Listing
import Stencil.Proofs.Command.Arrangement
import Stencil.Proofs.Cursor.History
import Stencil.Proofs.Json.Fronts
import Stencil.Proofs.Json.Integers
import Stencil.Proofs.Json.Members
import Stencil.Proofs.Environment.Integers
