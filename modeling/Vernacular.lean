import Vernacular.Bimap
import Vernacular.CommandLine.Argument
import Vernacular.CommandLine.Invocation
import Vernacular.CommandLine.Run
import Vernacular.Crash
import Vernacular.Decimal
import Vernacular.Diagnostic
import Vernacular.Diagnostic.Layout
import Vernacular.Diagnostic.Wording
import Vernacular.Dictionary
import Vernacular.Failure
import Vernacular.File.Fault
import Vernacular.File.Path
import Vernacular.File.Tree
import Vernacular.Json.Flat
import Vernacular.Json.Lexeme
import Vernacular.Json.Reader
import Vernacular.Json.Value
import Vernacular.Loading
import Vernacular.Locale.Affixes
import Vernacular.Locale.Builtin
import Vernacular.Locale.Builtin.English
import Vernacular.Locale.Builtin.Spanish
import Vernacular.Locale.Definition
import Vernacular.Locale.Name
import Vernacular.Locale.Registry
import Vernacular.Locale.Token
import Vernacular.Log
import Vernacular.Main
import Vernacular.Text.Blank
import Vernacular.Text.Cased
import Vernacular.Text.CharRanges
import Vernacular.Text.Digit
import Vernacular.Text.Lowercase
import Vernacular.Text.Newline
import Vernacular.Text.Printable
import Vernacular.Text.Quoted
import Vernacular.Text.StandIns
import Vernacular.Text.Utf8
import Vernacular.Text.Wide
import Vernacular.Translator
import Vernacular.Word.Cursor
import Vernacular.Word.Replace
import Vernacular.Word.Separators
import Vernacular.Word.Span
import Vernacular.Proofs.Word.Mapping
import Vernacular.Proofs.Bimap
import Vernacular.Proofs.Locale.Lineage
import Vernacular.Proofs.Locale.Registration
import Vernacular.Proofs.Locale.Resolution
import Vernacular.Proofs.Translator.Construction
import Vernacular.Proofs.Translator.Words
import Vernacular.Proofs.Locale.Builtin
import Vernacular.Proofs.Translator.RoundTrip
import Vernacular.Proofs.Bimap.History
import Vernacular.Proofs.Translator.NormalForm
import Vernacular.Proofs.Translator.Overrides
import Vernacular.Proofs.Translator.Piecewise
import Vernacular.Proofs.Bimap.Renaming
import Vernacular.Proofs.Locale.Acceptance
import Vernacular.Proofs.Locale.Records
import Vernacular.Proofs.Locale.Overriding
import Vernacular.Proofs.Locale.Completeness
import Vernacular.Proofs.Locale.Decoration
import Vernacular.Proofs.Translator.Affixes
import Vernacular.Proofs.Word.Reading
import Vernacular.Proofs.Locale.Spellings
import Vernacular.Proofs.Translator.Outcome
import Vernacular.Proofs.Translator.Recognition
import Vernacular.Proofs.Text.Utf8
import Vernacular.Proofs.File.Text
import Vernacular.Proofs.File.Tree
import Vernacular.Proofs.Loading
import Vernacular.Proofs.Text.Wide
import Vernacular.Proofs.Json.Limits
import Vernacular.Proofs.CommandLine.Outcome
import Vernacular.Proofs.CommandLine.Status
import Vernacular.Proofs.CommandLine.Delivery
import Vernacular.Proofs.CommandLine.Effect
import Vernacular.Proofs.Locale.Token
import Vernacular.Proofs.CommandLine.Pipe
import Vernacular.Proofs.CommandLine.Options
import Vernacular.Proofs.CommandLine.Copy
import Vernacular.Proofs.Bimap.Pairs
import Vernacular.Proofs.Bimap.Writing
import Vernacular.Proofs.Bimap.Agreement
import Vernacular.Proofs.Word.Decomposition
import Vernacular.Proofs.Word.Replacement
import Vernacular.Proofs.Json.Record
import Vernacular.Proofs.Diagnostic.Layout
import Vernacular.Proofs.Json.Lexeme
import Vernacular.Proofs.Json.Reader
import Vernacular.Proofs.Diagnostic.Place
import Vernacular.Proofs.Loading.Malformed
import Vernacular.Proofs.Diagnostic.Content
import Vernacular.Proofs.Loading.Shape
import Vernacular.Proofs.Locale.Matching
import Vernacular.Proofs.Locale.Forms
import Vernacular.Proofs.Locale.Closest
import Vernacular.Proofs.Locale.UserLocale
import Vernacular.Proofs.Locale.Stripping
