import Bookbinder.Text.Basic
import Bookbinder.Text.Alphanumeric
import Bookbinder.Text.Lowercase
import Bookbinder.Slug
import Bookbinder.Path
import Bookbinder.Script.Dialect
import Bookbinder.Comment.Basic
import Bookbinder.Comment.Parser
import Bookbinder.Comment.Printer
import Bookbinder.Json.Basic
import Bookbinder.Json.Printer
import Bookbinder.Json.Parser
import Bookbinder.Pattern
import Bookbinder.Construct.Basic
import Bookbinder.Construct.Forms
import Bookbinder.Construct.Classifier
import Bookbinder.Link.Window
import Bookbinder.Link.Basic
import Bookbinder.Comment.Encoding
import Bookbinder.Link.Encoding
import Bookbinder.Script.Tree
import Bookbinder.Script.Lexeme
import Bookbinder.Script.Scanner
import Bookbinder.Script.Extract
import Bookbinder.Disk.Basic
import Bookbinder.Module.Basic
import Bookbinder.Module.Category
import Bookbinder.Yaml.Scalar
import Bookbinder.Yaml.Basic
import Bookbinder.Book.Page
import Bookbinder.Book.Layout
import Bookbinder.Book.Project
import Bookbinder.Book.Writer
import Bookbinder.Text.Decimal
import Bookbinder.Toml.Basic
import Bookbinder.Toml.Scalar
import Bookbinder.Toml.Parser
import Bookbinder.Settings.Basic
import Bookbinder.Settings.Reader
import Bookbinder.Glob
import Bookbinder.Failure
import Bookbinder.Settings.File
import Bookbinder.Analysis.Filter
import Bookbinder.Analysis.Discovery
import Bookbinder.Analysis.Basic
import Bookbinder.Command.Basic
import Bookbinder.Command.Form
import Bookbinder.Command.Parser
import Bookbinder.Command.Help
import Bookbinder.Command.Run
import Bookbinder.Main
import Bookbinder.Proofs.Text.Cutting
import Bookbinder.Proofs.Text.Order
import Bookbinder.Proofs.Path
import Bookbinder.Proofs.Slug
import Bookbinder.Proofs.Pattern.Semantics
import Bookbinder.Proofs.Pattern.Occurrence
import Bookbinder.Proofs.Construct.Exports
import Bookbinder.Proofs.Link.Names
import Bookbinder.Proofs.Script.Positions
import Bookbinder.Proofs.Script.Walk
import Bookbinder.Proofs.Script.Extraction
import Bookbinder.Proofs.Link.Windows
import Bookbinder.Proofs.Disk.Following
import Bookbinder.Proofs.Disk.Evaluation
import Bookbinder.Proofs.Book.Layout
import Bookbinder.Proofs.Book.Plan
import Bookbinder.Proofs.Book.Counting
import Bookbinder.Proofs.Book.Files
import Bookbinder.Proofs.Disk.Tree
import Bookbinder.Proofs.Analysis.Runs
import Bookbinder.Proofs.Disk.Growth
import Bookbinder.Proofs.Book.Written
import Bookbinder.Proofs.Book.Chapters
import Bookbinder.Proofs.Disk.Directories
import Bookbinder.Proofs.Book.HomePage
import Bookbinder.Proofs.Analysis.Counts
import Bookbinder.Proofs.Comment.Blocks
import Bookbinder.Proofs.Comment.RoundTrip
import Bookbinder.Proofs.Analysis.Unreadable
import Bookbinder.Proofs.Book.Confinement
import Bookbinder.Proofs.Command.Confinement
import Bookbinder.Proofs.Disk.Upkeep
import Bookbinder.Proofs.Book.Repetition
import Bookbinder.Proofs.Analysis.Rebuild
import Bookbinder.Proofs.Command.Repetition
import Bookbinder.Proofs.Construct.Functions
import Bookbinder.Proofs.Text.Margins
import Bookbinder.Proofs.Link.Indentation
import Bookbinder.Proofs.Json.Spelling
import Bookbinder.Proofs.Json.Reading
import Bookbinder.Proofs.Link.Encoding
import Bookbinder.Proofs.Module.Speaker
import Bookbinder.Proofs.Command.Inspection
import Bookbinder.Proofs.Pattern.Search
import Bookbinder.Proofs.Construct.ExportSites
import Bookbinder.Proofs.Text.Balance
import Bookbinder.Proofs.Construct.Arrows
import Bookbinder.Proofs.Construct.Naming
import Bookbinder.Proofs.Construct.Declared
import Bookbinder.Proofs.Construct.Headings
import Bookbinder.Proofs.Construct.Scans
import Bookbinder.Proofs.Comment.Filing
import Bookbinder.Proofs.Link.Locality
import Bookbinder.Proofs.Module.Stability
import Bookbinder.Proofs.Text.Lowercase
import Bookbinder.Proofs.Slug.NormalForm
import Bookbinder.Proofs.Book.Anchors
import Bookbinder.Proofs.Analysis.Discovery
import Bookbinder.Proofs.Book.HeadingLines
import Bookbinder.Proofs.Comment.Defaults
import Bookbinder.Proofs.Comment.Braces
import Bookbinder.Proofs.Text.Joining
import Bookbinder.Proofs.Comment.NormalForm
import Bookbinder.Proofs.Comment.ParamNames
import Bookbinder.Proofs.Book.Listing
import Bookbinder.Proofs.Book.Titles
