import FloatCases.Command.Directory
import FloatCases.Main
import FloatCases.Report.Drawing
import FloatCases.Proofs.Conversion.Structure
import FloatCases.Proofs.Evidence.Fields
import FloatCases.Proofs.Conversion.Options
import FloatCases.Proofs.Text.Lines
import FloatCases.Proofs.Conversion.Modes
import FloatCases.Proofs.Conversion.Concatenation
import FloatCases.Proofs.Line.Passing
import FloatCases.Proofs.Listing.Inert
import FloatCases.Proofs.Conversion.Inert
import FloatCases.Proofs.Literal.Language
import FloatCases.Proofs.Literal.Padding
import FloatCases.Proofs.Conversion.Formats
import FloatCases.Proofs.Line.Refusal
import FloatCases.Proofs.Conversion.Terminators
import FloatCases.Proofs.Evidence.Widest
import FloatCases.Proofs.Grammar.Mismatch
import FloatCases.Proofs.Conversion.Account
import FloatCases.Proofs.Command.Outcome
import FloatCases.Proofs.Evidence.Delimiters
import FloatCases.Proofs.Table.Recovery
import FloatCases.Proofs.Report.Marking
import FloatCases.Proofs.Flags.Denotation
import FloatCases.Proofs.Report.Colours
import FloatCases.Proofs.Report.LineNumbers
import FloatCases.Proofs.Evidence.Passing
import FloatCases.Proofs.Listing.Positions
import FloatCases.Proofs.Flags.Splitting
import FloatCases.Proofs.Evidence.Extent
import FloatCases.Proofs.Text.Squeezing
