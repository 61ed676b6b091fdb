import ArtifactIndex.Asset.Naming
import ArtifactIndex.Asset.Table
import ArtifactIndex.Code.Literal
import ArtifactIndex.Code.Node
import ArtifactIndex.Code.Parser
import ArtifactIndex.Code.Query
import ArtifactIndex.Code.Token
import ArtifactIndex.CommandLine
import ArtifactIndex.Cursor
import ArtifactIndex.Digest
import ArtifactIndex.Encoding
import ArtifactIndex.Index
import ArtifactIndex.Json.Reader
import ArtifactIndex.Json.Shape
import ArtifactIndex.Json.Skip
import ArtifactIndex.Json.Value
import ArtifactIndex.Kind
import ArtifactIndex.Main
import ArtifactIndex.Options
import ArtifactIndex.Ordered
import ArtifactIndex.Path
import ArtifactIndex.Reference.Context
import ArtifactIndex.Reference.Pattern
import ArtifactIndex.Reference.Rules
import ArtifactIndex.Route.Basic
import ArtifactIndex.Route.Chain
import ArtifactIndex.Route.Declaration
import ArtifactIndex.Route.Encoding
import ArtifactIndex.Route.Naming
import ArtifactIndex.Route.Parameter
import ArtifactIndex.Route.Resource
import ArtifactIndex.Route.Scan
import ArtifactIndex.Route.Scope
import ArtifactIndex.Route.Table
import ArtifactIndex.Scan
import ArtifactIndex.Service.Answer
import ArtifactIndex.Service.Call
import ArtifactIndex.Service.Request
import ArtifactIndex.Site
import ArtifactIndex.Snapshot
import ArtifactIndex.Template.Fragment
import ArtifactIndex.Template.Group
import ArtifactIndex.Text.Basic
import ArtifactIndex.Text.Blank
import ArtifactIndex.Text.Decimal
import ArtifactIndex.Text.Dict
import ArtifactIndex.Text.Lines
import ArtifactIndex.Text.Quoted
import ArtifactIndex.Text.Visible
import ArtifactIndex.Text.Word
import ArtifactIndex.Translation.Flat
import ArtifactIndex.Translation.Key
import ArtifactIndex.Translation.Scan
import ArtifactIndex.Translation.Table
import ArtifactIndex.Tree.Basic
import ArtifactIndex.Tree.Disk
import ArtifactIndex.Tree.Glob
import ArtifactIndex.Tree.Ignore
import ArtifactIndex.Tree.Memory
import ArtifactIndex.Usage.Basic
import ArtifactIndex.Usage.Resolve
import ArtifactIndex.Usage.Scan
import ArtifactIndex.View.Naming
import ArtifactIndex.View.Table
import ArtifactIndex.Worker
import ArtifactIndex.Proofs.Code.Feed
import ArtifactIndex.Proofs.Code.Lexing
import ArtifactIndex.Proofs.Code.Literals
import ArtifactIndex.Proofs.Code.Nesting
import ArtifactIndex.Proofs.Code.Parsing
import ArtifactIndex.Proofs.Code.Quotation
import ArtifactIndex.Proofs.Code.Subnodes
import ArtifactIndex.Proofs.Cursor.Agreement
import ArtifactIndex.Proofs.Index.History
import ArtifactIndex.Proofs.Reference.QuotedKeys
import ArtifactIndex.Proofs.Route.Composition
import ArtifactIndex.Proofs.Route.Declared
import ArtifactIndex.Proofs.Template.Fragments
import ArtifactIndex.Proofs.Text.Lines
import ArtifactIndex.Proofs.Text.Segments
import ArtifactIndex.Proofs.Text.Slices
import ArtifactIndex.Proofs.Usage.Keys
import ArtifactIndex.Proofs.Usage.Passes
import ArtifactIndex.Proofs.Usage.Soundness
import ArtifactIndex.Proofs.Route.Chains
import ArtifactIndex.Proofs.Ordered
import ArtifactIndex.Proofs.Route.SourceOrder
import ArtifactIndex.Proofs.Code.Places
import ArtifactIndex.Proofs.Reference.RouterArguments
import ArtifactIndex.Proofs.Tree.Listing
import ArtifactIndex.Proofs.Usage.Once
import ArtifactIndex.Proofs.Text.Cuts
import ArtifactIndex.Proofs.Translation.Entries
import ArtifactIndex.Proofs.Translation.Declarations
import ArtifactIndex.Proofs.Worker.Protocol
import ArtifactIndex.Proofs.Index.Unreadable
import ArtifactIndex.Proofs.Index.Lookup
import ArtifactIndex.Proofs.Code.Moved
import ArtifactIndex.Proofs.Route.Moved
import ArtifactIndex.Proofs.Route.Spellings
import ArtifactIndex.Proofs.Route.ShownViews
import ArtifactIndex.Proofs.Cursor.Scripts
import ArtifactIndex.Proofs.Template.Comments
import ArtifactIndex.Proofs.Json.Members
import ArtifactIndex.Proofs.Translation.Positions
import ArtifactIndex.Proofs.Tree.Directories
import ArtifactIndex.Proofs.Translation.Order
import ArtifactIndex.Proofs.Usage.Aliases
import ArtifactIndex.Proofs.Json.FlatObjects
import ArtifactIndex.Proofs.Translation.Readings
import ArtifactIndex.Proofs.Template.Groups
import ArtifactIndex.Proofs.Template.Blocks
import ArtifactIndex.Proofs.Text.ByteChars
import ArtifactIndex.Proofs.Text.CheckedSlices
import ArtifactIndex.Proofs.Template.ByteScan
import ArtifactIndex.Proofs.Template.Tiling
import ArtifactIndex.Proofs.Text.Occurrences
import ArtifactIndex.Proofs.Text.Braces
import ArtifactIndex.Proofs.Route.Queries
import ArtifactIndex.Proofs.Route.Placeholders
import ArtifactIndex.Proofs.Reference.ControllerMethods
import ArtifactIndex.Proofs.Template.Attributes
import ArtifactIndex.Proofs.Route.Namespaces
import ArtifactIndex.Proofs.Route.Resources
import ArtifactIndex.Proofs.View.Roots
import ArtifactIndex.Proofs.View.Aliases
import ArtifactIndex.Proofs.View.Probing
import ArtifactIndex.Proofs.Route.Cache
import ArtifactIndex.Proofs.Route.Refusals
import ArtifactIndex.Proofs.Code.Written
import ArtifactIndex.Proofs.Template.Framing
import ArtifactIndex.Proofs.Cursor.Completion
import ArtifactIndex.Proofs.Json.Placed
import ArtifactIndex.Proofs.Translation.StrictSites
import ArtifactIndex.Proofs.Template.GroupSearch
import ArtifactIndex.Proofs.Code.Quoting
import ArtifactIndex.Proofs.Text.LineSearch
import ArtifactIndex.Proofs.Code.Source
import ArtifactIndex.Proofs.Tree.Files
import ArtifactIndex.Proofs.Worker.Settling
import ArtifactIndex.Proofs.Tables
