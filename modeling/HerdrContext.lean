import HerdrContext.Index.Json
import HerdrContext.Index.RoundTrip
import HerdrContext.Index.Publication
import HerdrContext.Index.CrashSafety
import HerdrContext.Index.Atomicity
import HerdrContext.Index.Concurrency
import HerdrContext.KnownStores.Metadata
import HerdrContext.Library.Incremental
import HerdrContext.Library.Reaching
import HerdrContext.KnownStores.Checks
import HerdrContext.KnownStores.ClaudeCode
import HerdrContext.KnownStores.CodexCli
import HerdrContext.KnownStores.Omp
import HerdrContext.KnownStores.Pi
import HerdrContext.KnownStores.Format
import HerdrContext.KnownStores.Refusals
import HerdrContext.KnownStores.Listing
import HerdrContext.KnownStores.Scan
import HerdrContext.KnownStores.Discover
import HerdrContext.KnownStores.SessionIds
import HerdrContext.KnownStores.Identity
import HerdrContext.KnownStores.Progress
import HerdrContext.KnownStores.PageLimit
import HerdrContext.KnownStores.PrefixGuard
import HerdrContext.Library.Transition
import HerdrContext.Worker.Runtime
import HerdrContext.Library.Gather
import HerdrContext.Worker.ReadLimited
import HerdrContext.Library.LatestWins
import HerdrContext.Worker.Protocol
import HerdrContext.Worker.Delivery
import HerdrContext.Library.UniqueIndex
import HerdrContext.Live.Merge
import HerdrContext.Live.Fingerprint
import HerdrContext.Library.Requests
import HerdrContext.Worker.Awaited
import HerdrContext.Worker.Beginnings
import HerdrContext.App.PaneInput
import HerdrContext.App.PaneInputLaw
import HerdrContext.Library.Rows
import HerdrContext.App.ConversationRows
import HerdrContext.App.ConversationRowsLaw
import HerdrContext.Library.Priced
import HerdrContext.Files.IgnoreRules
import HerdrContext.Library.Enumerate
import HerdrContext.Files.BoundedEntries
import HerdrContext.App.Controller
import HerdrContext.App.LiveRefresh
import HerdrContext.App.Steps
import HerdrContext.App.Simulation
import HerdrContext.App.MainLoop
import HerdrContext.App.LiveBaseline
import HerdrContext.App.LiveAnswer
import HerdrContext.Files.Status
import HerdrContext.Shares
import HerdrContext.Files.Ignore
import HerdrContext.Files.Tree
import HerdrContext.Files.Merge
import HerdrContext.Files.ChangedFiles
import HerdrContext.Files.Reachability
import HerdrContext.Files.Commutation
import HerdrContext.Files.Model
import HerdrContext.Files.Prepared
import HerdrContext.Host.DockState
import HerdrContext.Host.Launch
import HerdrContext.Host.StateStore
import HerdrContext.Host.Serializable
import HerdrContext.App.SourceErrors
import HerdrContext.Files.Expansion
import HerdrContext.Files.Runtime
import HerdrContext.Files.ExpansionLaw
import HerdrContext.Files.Steps
import HerdrContext.Files.FilesystemLaw
import HerdrContext.Files.Pages
import HerdrContext.Files.Scan
import HerdrContext.Library.Frontier
import HerdrContext.Index.Listing
import HerdrContext.Host.Resume
import HerdrContext.KeyBindings
import HerdrContext.Library.Framing
import HerdrContext.Vcs.Paths
import HerdrContext.Vcs.Jujutsu
import HerdrContext.Vcs.Git
import HerdrContext.Files.Projection
import HerdrContext.Library.Interaction
import HerdrContext.Host.Restore
import HerdrContext.OpenCode.Accepted
