import Workbench.Analysis.Structure
import Workbench.Analysis.Security
import Workbench.Analysis.TestSkeleton
import Workbench.Plan
import Workbench.Settings
import Workbench.Store.Area
import Workbench.Text.Utf8
import Workbench.Scaffold.Template
import Workbench.Json.Record
import Workbench.Fault
import Workbench.File.MemoryTree
import Workbench.Calendar.Reader
import Workbench.File.Disk
import Workbench.Store.Memory
import Workbench.Store.OnDisk
import Workbench.Program
import Workbench.Project.Manifest
import Workbench.World
import Workbench.Archive.Gzip
import Workbench.Archive.Package
import Workbench.Report
import Workbench.Yaml.Writer
import Workbench.Command.Words
import Workbench.Command.Run
import Workbench.EnvFile
import Workbench.Process
import Workbench.Main
import Workbench.Proofs.Archive.Gzip
import Workbench.Proofs.Text.Blank
import Workbench.Proofs.Text.Digits
import Workbench.Proofs.Text.Utf8
import Workbench.Proofs.Archive.Header
import Workbench.Proofs.Archive.Members
import Workbench.Proofs.Dictionary
import Workbench.Proofs.Text.Lines
import Workbench.Proofs.Archive.RoundTrip
import Workbench.Proofs.Calendar.InstantText
import Workbench.Proofs.Json.StringText
import Workbench.Proofs.Json.Record
import Workbench.Proofs.Snippet.Record
import Workbench.Proofs.Session.Ids
import Workbench.Proofs.Session.Durable
import Workbench.Proofs.Source.Parameters
import Workbench.Proofs.Analysis.Deserialization
import Workbench.Proofs.Service.Unchanged
import Workbench.Proofs.Project.Dependencies
import Workbench.Proofs.Project.Inventory
import Workbench.Proofs.Project.Order
import Workbench.Proofs.Confined
import Workbench.Proofs.Service.Keys
import Workbench.Proofs.File.Disk
import Workbench.Proofs.File.Names
import Workbench.Proofs.File.Directory
import Workbench.Proofs.Store.OnDisk
import Workbench.Proofs.Store.Writing
import Workbench.Proofs.Store.AllOrNothing
import Workbench.Proofs.Store.Interchange
import Workbench.Proofs.Service.Lookup
import Workbench.Proofs.Session.Clients
import Workbench.Proofs.Text.Spacing
import Workbench.Proofs.Source.Declaration
import Workbench.Proofs.Source.Depth
import Workbench.Proofs.Source.ImportLine
import Workbench.Proofs.Analysis.LineEnds
import Workbench.Proofs.Analysis.TestSkeleton
import Workbench.Proofs.Keyword
import Workbench.Proofs.Source.Occurrence
import Workbench.Proofs.Source.Listing
import Workbench.Proofs.Analysis.Call
import Workbench.Proofs.Json.LastPlace
import Workbench.Proofs.Yaml.Document
import Workbench.Proofs.Yaml.Scalar
import Workbench.Proofs.Yaml.Unblank
import Workbench.Proofs.Yaml.Twin
import Workbench.Proofs.Yaml.Fading
import Workbench.Proofs.Project.Rendering
import Workbench.Proofs.Source.StatementEnd
import Workbench.Proofs.Source.ImportGrammar
import Workbench.Proofs.Analysis.Query
import Workbench.Proofs.Analysis.Password
import Workbench.Proofs.Analysis.Surroundings
import Workbench.Proofs.Prompt.Listing
import Workbench.Proofs.Prompt.OnDisk
import Workbench.Proofs.Prompt.Loading
import Workbench.Proofs.Source.Indent
import Workbench.Proofs.Source.Pieces
import Workbench.Proofs.Json.Grammar
import Workbench.Proofs.Json.Reading
import Workbench.Proofs.Json.Skipping
import Workbench.Proofs.Project.Manifest
import Workbench.Proofs.File.Coherence
