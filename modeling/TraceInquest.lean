import TraceInquest.Codebase.Analysis
import TraceInquest.Codebase.FanOut
import TraceInquest.Codebase.Locate
import TraceInquest.Codebase.Scan
import TraceInquest.Codebase.Scope
import TraceInquest.Decimal.Nearest
import TraceInquest.Decimal.Shortest
import TraceInquest.FileSystem.Basic
import TraceInquest.FileSystem.Directory
import TraceInquest.FileSystem.Edit
import TraceInquest.Ignore.Glob
import TraceInquest.Ignore.Rule
import TraceInquest.Main
import TraceInquest.Path
import TraceInquest.Pattern.Ahead
import TraceInquest.Pattern.Basic
import TraceInquest.Pattern.Search
import TraceInquest.Pattern.Stops
import TraceInquest.Pattern.Tuned
import TraceInquest.Proofs.Codebase.Analysis
import TraceInquest.Proofs.Codebase.Confined
import TraceInquest.Proofs.Codebase.Extensions
import TraceInquest.Proofs.Codebase.FanOut
import TraceInquest.Proofs.Codebase.FirstText
import TraceInquest.Proofs.Codebase.FrameFile
import TraceInquest.Proofs.Codebase.FrameOrder
import TraceInquest.Proofs.Codebase.LocatedListed
import TraceInquest.Proofs.Codebase.NewlineStyle
import TraceInquest.Proofs.Codebase.RootSpelling
import TraceInquest.Proofs.Codebase.ScanExact
import TraceInquest.Proofs.Codebase.ScanOrder
import TraceInquest.Proofs.Codebase.Unreadable
import TraceInquest.Proofs.Codebase.Walk
import TraceInquest.Proofs.Codebase.WalkOrder
import TraceInquest.Proofs.Except
import TraceInquest.Proofs.FileSystem.Below
import TraceInquest.Proofs.FileSystem.Changed
import TraceInquest.Proofs.FileSystem.Directory
import TraceInquest.Proofs.FileSystem.Edit
import TraceInquest.Proofs.FileSystem.Entry
import TraceInquest.Proofs.FileSystem.Location
import TraceInquest.Proofs.FileSystem.Making
import TraceInquest.Proofs.FileSystem.Overwritten
import TraceInquest.Proofs.FileSystem.Reading
import TraceInquest.Proofs.FileSystem.Spelling
import TraceInquest.Proofs.Path
import TraceInquest.Proofs.Pattern.Attempt
import TraceInquest.Proofs.Pattern.CapturedTexts
import TraceInquest.Proofs.Pattern.Captures
import TraceInquest.Proofs.Pattern.Kept
import TraceInquest.Proofs.Pattern.Keywords
import TraceInquest.Proofs.Pattern.Language
import TraceInquest.Proofs.Pattern.Passage
import TraceInquest.Proofs.Pattern.Plain
import TraceInquest.Proofs.Pattern.Stops
import TraceInquest.Proofs.Report.CodebaseLines
import TraceInquest.Proofs.Report.CodebaseSections
import TraceInquest.Proofs.Report.Faithful
import TraceInquest.Proofs.Report.Headings
import TraceInquest.Proofs.Report.Lines
import TraceInquest.Proofs.Report.ShortList
import TraceInquest.Proofs.Report.SourceLines
import TraceInquest.Proofs.Run.Agreement
import TraceInquest.Proofs.Run.CodebaseLog
import TraceInquest.Proofs.Run.Effects
import TraceInquest.Proofs.Run.Messages
import TraceInquest.Proofs.Run.TraceLog
import TraceInquest.Proofs.Settings.Checked
import TraceInquest.Proofs.Source.DeclarationFinds
import TraceInquest.Proofs.Source.DeclarationLines
import TraceInquest.Proofs.Source.DeclarationMatches
import TraceInquest.Proofs.Source.DeclarationTexts
import TraceInquest.Proofs.Source.FirstFinds
import TraceInquest.Proofs.Source.ImportFinds
import TraceInquest.Proofs.Source.ImportLines
import TraceInquest.Proofs.Source.ImportMatches
import TraceInquest.Proofs.Source.ImportTexts
import TraceInquest.Proofs.Source.Names
import TraceInquest.Proofs.Source.NearestDeclaration
import TraceInquest.Proofs.Source.SymbolOrder
import TraceInquest.Proofs.Source.Symbols
import TraceInquest.Proofs.Source.Vocabulary
import TraceInquest.Proofs.Source.Window
import TraceInquest.Proofs.Source.WindowRows
import TraceInquest.Proofs.Text.Blank
import TraceInquest.Proofs.Text.Blocks
import TraceInquest.Proofs.Text.Case
import TraceInquest.Proofs.Text.Digit
import TraceInquest.Proofs.Text.Ends
import TraceInquest.Proofs.Text.Lines
import TraceInquest.Proofs.Text.Newlines
import TraceInquest.Proofs.Text.Parts
import TraceInquest.Proofs.Text.ReadBack
import TraceInquest.Proofs.Text.Utf8
import TraceInquest.Proofs.Text.Words
import TraceInquest.Proofs.Trace.Concatenation
import TraceInquest.Proofs.Trace.Coverage
import TraceInquest.Proofs.Trace.Frame
import TraceInquest.Proofs.Trace.JavaScriptJava
import TraceInquest.Proofs.Trace.Layout
import TraceInquest.Proofs.Trace.Lines
import TraceInquest.Proofs.Trace.Numbers
import TraceInquest.Proofs.Trace.PythonGeneric
import TraceInquest.Proofs.Trace.Ruby
import TraceInquest.Proofs.Trace.WellFormed
import TraceInquest.Report.Codebase
import TraceInquest.Report.Trace
import TraceInquest.Run.Basic
import TraceInquest.Run.Event
import TraceInquest.Run.Failure
import TraceInquest.Settings.Basic
import TraceInquest.Settings.EnvFile
import TraceInquest.Settings.Value
import TraceInquest.Source.Declaration
import TraceInquest.Source.Import
import TraceInquest.Source.Language
import TraceInquest.Source.Symbols
import TraceInquest.Source.Window
import TraceInquest.Text.Alphanumeric
import TraceInquest.Text.Blank
import TraceInquest.Text.Blocks
import TraceInquest.Text.Case
import TraceInquest.Text.CharRange
import TraceInquest.Text.Digit
import TraceInquest.Text.Lines
import TraceInquest.Text.Printable
import TraceInquest.Text.Quoted
import TraceInquest.Text.Utf8
import TraceInquest.Trace.Frame
import TraceInquest.Trace.Parse
import TraceInquest.Trace.Rule
