import InlineIcons.Main
import InlineIcons.Proofs.Json.Text
import InlineIcons.Proofs.Assets
import InlineIcons.Proofs.Fingerprint
import InlineIcons.Proofs.Json.Records
import InlineIcons.Proofs.Memo
import InlineIcons.Proofs.Pipeline.Collected
import InlineIcons.Proofs.Pipeline.Hashed
import InlineIcons.Proofs.Pipeline.Run
import InlineIcons.Proofs.Pipeline.Incremental
import InlineIcons.Proofs.Pipeline.UnitNames
import InlineIcons.Proofs.Literal
import InlineIcons.Proofs.Program.Block
import InlineIcons.Proofs.Program.Writer
import InlineIcons.Proofs.Program.Statement
import InlineIcons.Proofs.Program.Dispatch
import InlineIcons.Proofs.Program.Drawing
import InlineIcons.Proofs.FileTree.Basic
import InlineIcons.Proofs.FileTree.Write
import InlineIcons.Proofs.FileTree.Output
import InlineIcons.Proofs.FileTree.Rules
import InlineIcons.Proofs.Scan
import InlineIcons.Proofs.Pipeline.Units
import InlineIcons.Proofs.Project
import InlineIcons.Proofs.Project.FixedPoint
import InlineIcons.Proofs.Markup.Name
import InlineIcons.Proofs.Markup.Written
import InlineIcons.Proofs.Markup.Entity
import InlineIcons.Proofs.Markup.Tag
import InlineIcons.Proofs.Markup.Document
import InlineIcons.Proofs.Asset.Written
import InlineIcons.Proofs.Asset.Reloaded
import InlineIcons.Proofs.Memo.Print
import InlineIcons.Proofs.Pipeline.Selected
import InlineIcons.Proofs.Analysis
import InlineIcons.Proofs.Pipeline.Skipped
import InlineIcons.Proofs.Pipeline.Order
import InlineIcons.Proofs.Pipeline.Faulty
import InlineIcons.Proofs.Pipeline.Reuse
import InlineIcons.Proofs.Pipeline.Accounts
import InlineIcons.Proofs.Identifier.Words
import InlineIcons.Proofs.Pipeline.Advice
import InlineIcons.Proofs.Pipeline.Separate
import InlineIcons.Proofs.FileTree.DryRun
import InlineIcons.Proofs.Source.Attribute
import InlineIcons.Proofs.Source.Directive
import InlineIcons.Proofs.Identifier.Legal
import InlineIcons.Proofs.Pipeline.Catalog
import InlineIcons.Proofs.Source.PathText
import InlineIcons.Proofs.Source.Lookup
import InlineIcons.Proofs.Source.Resolution
import InlineIcons.Proofs.Source.Repeated
import InlineIcons.Proofs.Source.Declared
import InlineIcons.Proofs.Source.Anchored
import InlineIcons.Proofs.Diagnostic
import InlineIcons.Proofs.Pipeline.Renaming
import InlineIcons.Proofs.Literal.Spelling
import InlineIcons.Proofs.Identifier.RoundTrip
import InlineIcons.Proofs.Identifier.Runs
import InlineIcons.Proofs.Identifier.Shared
import InlineIcons.Proofs.Asset.Accepted
import InlineIcons.Proofs.Program.Listing
import InlineIcons.Proofs.FileTree.Written
import InlineIcons.Proofs.Source.Items
import InlineIcons.Proofs.Source.Files
import InlineIcons.Proofs.Program.Closing
import InlineIcons.Proofs.Pipeline.Index
import InlineIcons.Proofs.Source.TypeExpr
import InlineIcons.Proofs.Source.Display
import InlineIcons.Proofs.Source.Lexing
import InlineIcons.Proofs.Source.Reading
import InlineIcons.Proofs.Source.Shown
import InlineIcons.Proofs.Json.Decoding
import InlineIcons.Proofs.Pipeline.ToldApart
import InlineIcons.Proofs.Source.ModulePath
import InlineIcons.Proofs.Scan.Added
import InlineIcons.Proofs.Project.Added
