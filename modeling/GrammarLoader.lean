import GrammarLoader.Main
import GrammarLoader.Session
import GrammarLoader.Proofs.Effect
import GrammarLoader.Proofs.Logging.Obstacle
import GrammarLoader.Proofs.Simulation
import GrammarLoader.Proofs.Search.Locating
import GrammarLoader.Proofs.Loader.Attempt
import GrammarLoader.Proofs.Loader.Source
import GrammarLoader.Proofs.Loader.Memory
import GrammarLoader.Proofs.Loader.Calls
import GrammarLoader.Proofs.Loader.Transparency
import GrammarLoader.Proofs.Check.Report
import GrammarLoader.Proofs.Search.Breaking
import GrammarLoader.Proofs.Loader.Faults
import GrammarLoader.Proofs.Loader.Stages
import GrammarLoader.Proofs.Contract
import GrammarLoader.Proofs.Logging.Written
import GrammarLoader.Proofs.Logging.Configuration
import GrammarLoader.Proofs.Smoke.Status
import GrammarLoader.Proofs.Search.Absolute
import GrammarLoader.Proofs.Loader.Opened
import GrammarLoader.Proofs.Double
import GrammarLoader.Proofs.Json.Number
import GrammarLoader.Proofs.Json.RoundTrip
import GrammarLoader.Proofs.Logging.Records
import GrammarLoader.Proofs.Logging.Independence
import GrammarLoader.Proofs.Settings.Environment
import GrammarLoader.Proofs.EnvFile.Appending
import GrammarLoader.Proofs.EnvFile.Literal
import GrammarLoader.Proofs.EnvFile.Quoting
import GrammarLoader.Proofs.Settings.EnvFile
import GrammarLoader.Proofs.Settings.Winning
import GrammarLoader.Proofs.Settings.Precedence
import GrammarLoader.Proofs.Settings.Rejection
import GrammarLoader.Proofs.Search.Order
import GrammarLoader.Proofs.Check.Outcome
import GrammarLoader.Proofs.Path.Text
import GrammarLoader.Proofs.FileTree.Walk
import GrammarLoader.Proofs.LinkResolution.Leads
import GrammarLoader.Proofs.LinkResolution.Canonical
import GrammarLoader.Proofs.Search.Pinned
