import NumeralLint.Main
import NumeralLint.Proofs.Prose.Display
import NumeralLint.Proofs.Reports
import NumeralLint.Proofs.Segmentation
import NumeralLint.Proofs.SourceMap
import NumeralLint.Proofs.Table.Joining
import NumeralLint.Proofs.Concatenation
import NumeralLint.Proofs.TrailingBlanks
import NumeralLint.Proofs.Prose.Abbreviations
import NumeralLint.Proofs.CommandLine.Files
import NumeralLint.Proofs.Leniency
import NumeralLint.Proofs.Json.ReadBack
import NumeralLint.Proofs.Json.Records
import NumeralLint.Proofs.JsonOutput
import NumeralLint.Proofs.TablesInBlocks
import NumeralLint.Proofs.Prose.Slices
import NumeralLint.Proofs.Slices
import NumeralLint.Proofs.MaximalMunch
import NumeralLint.Proofs.Prose.Decision
import NumeralLint.Proofs.Table.Lexing
import NumeralLint.Proofs.Table.LeadingRules
import NumeralLint.Proofs.Escapes
import NumeralLint.Proofs.Table.Cells
import NumeralLint.Proofs.Table.Accounting
import NumeralLint.Proofs.Prose.Placement
import NumeralLint.Proofs.Prose.SentenceEnds
import NumeralLint.Proofs.Source.Comments
import NumeralLint.Proofs.Source.Index
import NumeralLint.Proofs.Order
import NumeralLint.Proofs.InsertedLine
import NumeralLint.Proofs.Prose.Delimiters
import NumeralLint.Proofs.Restriction
import NumeralLint.Proofs.Carets
import NumeralLint.Proofs.Table.NumericCells
import NumeralLint.Proofs.Json.Numbers
import NumeralLint.Proofs.Json.Values
import NumeralLint.Proofs.Json.AnyOrder
import NumeralLint.Proofs.Config.Objects
import NumeralLint.Proofs.Decimal.Notation
import NumeralLint.Proofs.Config.ReadBack
