import CLex.CommandLine.Folder
import CLex.Main
import CLex.Proofs.Analysis.Conservation
import CLex.Proofs.Analysis.FixedPoint
import CLex.Proofs.Analysis.Layout
import CLex.Proofs.Analysis.Lines
import CLex.Proofs.Text.Stages
import CLex.Text.Assembly
import CLex.Text.Place
import CLex.Proofs.Analysis.Strict
import CLex.Proofs.Analysis.Scan
import CLex.Proofs.Comment.LineEnds
import CLex.Proofs.Analysis.LineEnds
import CLex.Proofs.Comment.Returns
import CLex.Proofs.Analysis.Returns
import CLex.Proofs.Json.Characters
import CLex.Proofs.Json.Symbols
import CLex.Proofs.Json.Reading
import CLex.Proofs.Report.Document
import CLex.Proofs.Text.Spaces
import CLex.Proofs.Diagnostic.Lines
import CLex.Proofs.CommandLine.Spelling
import CLex.Proofs.CommandLine.Answer
import CLex.Proofs.CommandLine.Outcome
import CLex.Proofs.Spacing.Lines
import CLex.Proofs.Spacing.Normal
import CLex.Proofs.Position.Offsets
import CLex.Proofs.Text.Labels
import CLex.Proofs.Text.Items
import CLex.Proofs.Text.Keywords
import CLex.Proofs.Diagnostic.Messages
import CLex.Proofs.Report.Listing
import CLex.Proofs.Token.Language
import CLex.Proofs.Lexing.Lexemes
import CLex.Proofs.Report.Counts
