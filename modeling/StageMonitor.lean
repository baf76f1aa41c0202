import StageMonitor.Main
import StageMonitor.Proofs.Json.Spelling
import StageMonitor.Proofs.Json.StringToken
import StageMonitor.Proofs.Json.Container
import StageMonitor.Proofs.Json.Document
import StageMonitor.Proofs.Json.Layout
import StageMonitor.Proofs.Session
import StageMonitor.Proofs.Dashboard.Document
import StageMonitor.Proofs.Panel.Targets
import StageMonitor.Proofs.Dashboard.Bands
import StageMonitor.Proofs.Dashboard.Recovery
import StageMonitor.Proofs.Comparison
import StageMonitor.Proofs.Catalog.Report
import StageMonitor.Proofs.Query
import StageMonitor.Proofs.Dashboard.Queries
import StageMonitor.Proofs.Dashboard.Building
import StageMonitor.Proofs.Json.Skipped
import StageMonitor.Proofs.Storing
import StageMonitor.Proofs.Json.Decoding
import StageMonitor.Proofs.Catalog.Reader
import StageMonitor.Proofs.Catalog.Loading
import StageMonitor.Proofs.Dashboard.Grid
import StageMonitor.Proofs.Storage.Growth
import StageMonitor.Proofs.Outcome
import StageMonitor.Proofs.CommandLine.Options
import StageMonitor.Proofs.CommandLine.Run
import StageMonitor.Proofs.CommandLine.Rerun
import StageMonitor.Proofs.CommandLine.Failing
import StageMonitor.Proofs.Json.Compact
import StageMonitor.Proofs.Dashboard.Decoding
import StageMonitor.Proofs.Catalog.Wording
import StageMonitor.Proofs.Catalog.Faults
import StageMonitor.Proofs.Dashboard.Templates
import StageMonitor.Proofs.Dashboard.Joining
import StageMonitor.Proofs.Storage.Directories
import StageMonitor.Proofs.Dumping
import StageMonitor.Proofs.Panel.Style
import StageMonitor.Proofs.Dashboard.Requests
import StageMonitor.Proofs.CommandLine.Printing
import StageMonitor.Proofs.CommandLine.Filtering
import StageMonitor.Proofs.CommandLine.Settings
import StageMonitor.Proofs.CommandLine.Spelling
