import OpenApiClient.Client.ClientFunction
import OpenApiClient.Client.Declarations
import OpenApiClient.Client.Diagnostic
import OpenApiClient.Client.Generate
import OpenApiClient.Client.Groups
import OpenApiClient.Client.ModulePath
import OpenApiClient.Client.NameSupply
import OpenApiClient.Client.Names
import OpenApiClient.Client.PathTemplate
import OpenApiClient.Client.Plan
import OpenApiClient.Client.RequestHelper
import OpenApiClient.Client.RequestShape
import OpenApiClient.Client.SchemaType
import OpenApiClient.Code.Builder
import OpenApiClient.Code.Declaration
import OpenApiClient.Code.Fragment
import OpenApiClient.Code.Identifier
import OpenApiClient.Code.SourceFile
import OpenApiClient.Code.TypeExpr
import OpenApiClient.Command.Arguments
import OpenApiClient.Command.Report
import OpenApiClient.Command.Run
import OpenApiClient.Config.Basic
import OpenApiClient.Config.Read
import OpenApiClient.Config.Wire
import OpenApiClient.Document.Basic
import OpenApiClient.Document.Inline
import OpenApiClient.Document.Normal
import OpenApiClient.Document.Read
import OpenApiClient.Document.Select
import OpenApiClient.Document.Source
import OpenApiClient.Document.Violation
import OpenApiClient.Document.Wire
import OpenApiClient.Double.Basic
import OpenApiClient.Double.Format
import OpenApiClient.Double.Shortest
import OpenApiClient.Json.Basic
import OpenApiClient.Json.Direct
import OpenApiClient.Json.Reader
import OpenApiClient.Json.Typed
import OpenApiClient.Json.Writer
import OpenApiClient.Main
import OpenApiClient.NameStyle
import OpenApiClient.Output.Directory
import OpenApiClient.Output.File
import OpenApiClient.Output.Tree
import OpenApiClient.Proofs.Code.Comment
import OpenApiClient.Proofs.Code.Commented
import OpenApiClient.Proofs.Code.Indented
import OpenApiClient.Proofs.Code.Numeral
import OpenApiClient.Proofs.Code.Property
import OpenApiClient.Proofs.Code.Template
import OpenApiClient.Proofs.Code.TypeText
import OpenApiClient.Proofs.Code.TypeToken
import OpenApiClient.Proofs.Code.TypeTree
import OpenApiClient.Proofs.Config.Layers
import OpenApiClient.Proofs.Config.Written
import OpenApiClient.Proofs.Document.Chains
import OpenApiClient.Proofs.Document.Counted
import OpenApiClient.Proofs.Document.Effective
import OpenApiClient.Proofs.Document.Indirection
import OpenApiClient.Proofs.Document.Normal
import OpenApiClient.Proofs.Document.Parts
import OpenApiClient.Proofs.Document.Places
import OpenApiClient.Proofs.Document.Pointed
import OpenApiClient.Proofs.Document.Pointers
import OpenApiClient.Proofs.Document.Resolution
import OpenApiClient.Proofs.Document.Restricted
import OpenApiClient.Proofs.Document.Rules
import OpenApiClient.Proofs.Document.Typed
import OpenApiClient.Proofs.Document.Uses
import OpenApiClient.Proofs.Document.Written
import OpenApiClient.Proofs.Double.Interval
import OpenApiClient.Proofs.Double.Shortest
import OpenApiClient.Proofs.Double.Text
import OpenApiClient.Proofs.Gives
import OpenApiClient.Proofs.InPass
import OpenApiClient.Proofs.Json.Compact
import OpenApiClient.Proofs.Json.Direct
import OpenApiClient.Proofs.Json.Failures
import OpenApiClient.Proofs.Json.Keys
import OpenApiClient.Proofs.Json.Lookup
import OpenApiClient.Proofs.Json.Readings
import OpenApiClient.Proofs.Json.Related
import OpenApiClient.Proofs.Json.Spacing
import OpenApiClient.Proofs.Modules.Functions
import OpenApiClient.Proofs.Modules.Groups
import OpenApiClient.Proofs.Modules.Partition
import OpenApiClient.Proofs.Modules.Renaming
import OpenApiClient.Proofs.Modules.Selection
import OpenApiClient.Proofs.Names.Aliases
import OpenApiClient.Proofs.Names.Claims
import OpenApiClient.Proofs.Names.Format
import OpenApiClient.Proofs.Names.Identifiers
import OpenApiClient.Proofs.Names.Initials
import OpenApiClient.Proofs.Names.OperationTypes
import OpenApiClient.Proofs.Names.Places
import OpenApiClient.Proofs.Names.Reserved
import OpenApiClient.Proofs.Names.Restyled
import OpenApiClient.Proofs.Names.Segmentation
import OpenApiClient.Proofs.Names.Slugs
import OpenApiClient.Proofs.Names.Supply
import OpenApiClient.Proofs.Names.Words
import OpenApiClient.Proofs.Noted
import OpenApiClient.Proofs.Output.Barrel
import OpenApiClient.Proofs.Output.Clashes
import OpenApiClient.Proofs.Output.Counted
import OpenApiClient.Proofs.Output.Directories
import OpenApiClient.Proofs.Output.Forest
import OpenApiClient.Proofs.Output.Growing
import OpenApiClient.Proofs.Output.Languages
import OpenApiClient.Proofs.Output.Links
import OpenApiClient.Proofs.Output.Paths
import OpenApiClient.Proofs.Output.Saving
import OpenApiClient.Proofs.Output.Segments
import OpenApiClient.Proofs.Output.Ways
import OpenApiClient.Proofs.Repetitions
import OpenApiClient.Proofs.Request.Address
import OpenApiClient.Proofs.Request.Agreement
import OpenApiClient.Proofs.Request.Coverage
import OpenApiClient.Proofs.Request.Distinct
import OpenApiClient.Proofs.Request.Recomputed
import OpenApiClient.Proofs.Request.Reported
import OpenApiClient.Proofs.Schema.Normal
import OpenApiClient.Proofs.Schema.Stable
import OpenApiClient.Proofs.Schema.Written
import OpenApiClient.Proofs.Text.Lines
import OpenApiClient.Proofs.Text.Lowercase
import OpenApiClient.Proofs.Text.Place
import OpenApiClient.Proofs.Text.Runs
import OpenApiClient.Proofs.Types.Closed
import OpenApiClient.Proofs.Types.Declared
import OpenApiClient.Proofs.Types.Defined
import OpenApiClient.Proofs.Types.Dependence
import OpenApiClient.Proofs.Types.Exported
import OpenApiClient.Proofs.Types.Meaning
import OpenApiClient.Proofs.Types.Mentioned
import OpenApiClient.Proofs.Types.Needed
import OpenApiClient.Proofs.Types.Notes
import OpenApiClient.Proofs.Types.Provided
import OpenApiClient.Proofs.Types.Reach
import OpenApiClient.Proofs.Types.References
import OpenApiClient.Proofs.Types.Reported
import OpenApiClient.Proofs.Types.Reserved
import OpenApiClient.Proofs.Types.Units
import OpenApiClient.Proofs.Types.Visited
import OpenApiClient.Proofs.Types.Wanted
import OpenApiClient.Proofs.Yaml.Entries
import OpenApiClient.Proofs.Yaml.Keys
import OpenApiClient.Schema.Basic
import OpenApiClient.Schema.Pointer
import OpenApiClient.Schema.Wire
import OpenApiClient.Text.Basic
import OpenApiClient.Text.Blank
import OpenApiClient.Text.CaseData
import OpenApiClient.Text.Lowercase
import OpenApiClient.Text.Position
import OpenApiClient.Text.PrintableData
import OpenApiClient.Text.Script
import OpenApiClient.Text.Slug
import OpenApiClient.Text.Visible
import OpenApiClient.Text.Words
import OpenApiClient.Toml.Document
import OpenApiClient.Toml.Scalar
import OpenApiClient.Toml.Statement
import OpenApiClient.Yaml.Cursor
import OpenApiClient.Yaml.Json
import OpenApiClient.Yaml.Node
import OpenApiClient.Yaml.Scalar
import OpenApiClient.Yaml.Tag
import OpenApiClient.Yaml.Token
import OpenApiClient.Yaml.Value
