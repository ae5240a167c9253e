import Parlance.Main
import Parlance.Number.Bits
import Parlance.Proofs.Sequencing
import Parlance.Proofs.Token.LexicalGrammar
import Parlance.Proofs.Token.Scanning
import Parlance.Proofs.Token.Places
import Parlance.Proofs.Token.Splitting
import Parlance.Proofs.Token.Joining
import Parlance.Proofs.Token.Spelling
import Parlance.Proofs.Program.Grammar
import Parlance.Proofs.Program.Reader
import Parlance.Proofs.Program.Soundness
import Parlance.Proofs.Program.Completeness
import Parlance.Proofs.Program.Lookahead
import Parlance.Proofs.Program.CorrectPrefix
import Parlance.Proofs.Program.Relocation
import Parlance.Proofs.Program.Nesting
import Parlance.Proofs.Program.Quoting
import Parlance.Proofs.Program.InnermostCall
import Parlance.Proofs.Run.Rounds
import Parlance.Proofs.Run.Relocation
import Parlance.Proofs.Run.Writing
import Parlance.Proofs.Source.Joining
import Parlance.Proofs.Source.Layout
import Parlance.Proofs.Source.ErrorPlaces
import Parlance.Proofs.Source.Reports
import Parlance.Proofs.Stream.Pieces
import Parlance.Proofs.Stream.Lines
import Parlance.Proofs.Stream.Readings
import Parlance.Proofs.Number.Rounding
import Parlance.Proofs.Number.Shortest
import Parlance.Proofs.Number.Digits
import Parlance.Proofs.Number.Formatting
import Parlance.Proofs.Number.Numerals
import Parlance.Proofs.Number.ReadBack
import Parlance.Proofs.Number.PlainDecimal
import Parlance.Proofs.Source.UnreachableFaults
import Parlance.Proofs.Dialogue.Submissions
import Parlance.Proofs.Dialogue.FileAgreement
import Parlance.Proofs.Dialogue.BraceCount
import Parlance.Proofs.Dialogue.Accounting
import Parlance.Proofs.Dialogue.Endurance
import Parlance.Proofs.Run.Comparison
import Parlance.Proofs.Run.Parts
import Parlance.Proofs.Run.Variables
import Parlance.Proofs.Run.Reading
import Parlance.Proofs.Run.Truncation
import Parlance.Proofs.Program.IndexCursor
import Parlance.Proofs.Run.Flattening
import Parlance.Proofs.Run.Effects
import Parlance.Proofs.Run.Asking
import Parlance.Proofs.Run.Equality
