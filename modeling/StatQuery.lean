import StatQuery.CommandLine.Client
import StatQuery.CommandLine.Server
import StatQuery.Main
import StatQuery.Proofs.Daemon.CacheReport
import StatQuery.Proofs.Daemon.InfoReport
import StatQuery.Proofs.Daemon.Reply
import StatQuery.Proofs.Daemon.Wire
import StatQuery.Session
import StatQuery.Proofs.Daemon.SingleInfo
import StatQuery.Proofs.Json.Grammar
import StatQuery.Proofs.Protocol.Classification
import StatQuery.Proofs.Registry.History
import StatQuery.Proofs.Daemon.Counting
import StatQuery.Proofs.Session.Run
import StatQuery.Proofs.Registry.Sharing
import StatQuery.Proofs.Session.Snapshots
import StatQuery.Proofs.Daemon.Alike
import StatQuery.Proofs.Session.Interference
import StatQuery.Proofs.Registry.Interleaving
import StatQuery.Proofs.Toml.Layering
import StatQuery.Proofs.Toml.Scan
import StatQuery.Proofs.Toml.Text
import StatQuery.Proofs.Toml.Scalar
import StatQuery.Proofs.Toml.Statements
import StatQuery.Proofs.Toml.Building
import StatQuery.Proofs.Config.Written
import StatQuery.Proofs.Config.Reading
import StatQuery.Proofs.Config.Table
import StatQuery.Proofs.Toml.Canonical
import StatQuery.Proofs.Config.RoundTrip
import StatQuery.Proofs.Config.Layers
import StatQuery.Proofs.Toml.Inherited
import StatQuery.Proofs.Toml.Range
import StatQuery.Proofs.Config.Dumped
import StatQuery.Proofs.Config.Accepted
import StatQuery.Proofs.Config.Blame
import StatQuery.Proofs.Toml.Repetition
import StatQuery.Proofs.Config.Files
import StatQuery.Proofs.CommandLine.Precedence
import StatQuery.Proofs.Daemon.Verdict
import StatQuery.Proofs.Daemon.Deadline
import StatQuery.Proofs.Config.View
import StatQuery.Proofs.Daemon.Start
import StatQuery.Proofs.Daemon.Malformed
import StatQuery.Proofs.Provider.Counters
import StatQuery.Proofs.Daemon.CacheViews
import StatQuery.Proofs.Session.Held
import StatQuery.Proofs.Session.Caches
import StatQuery.Proofs.Endpoint
import StatQuery.Proofs.Json.Units
import StatQuery.Proofs.Json.Tree
import StatQuery.Proofs.Json.Meaning
import StatQuery.Proofs.Json.Outcome
import StatQuery.Proofs.Protocol.Members
import StatQuery.Proofs.Protocol.Respelling
