import Toolrun.Main
import Toolrun.Proofs.Capture
import Toolrun.Proofs.Readers
import Toolrun.Proofs.Invocation.Record
import Toolrun.Proofs.Invocation.Outcome
import Toolrun.Proofs.Invocation.Child
import Toolrun.Proofs.Session
import Toolrun.Proofs.Invocation.Undisturbed
import Toolrun.Proofs.Unaided
import Toolrun.Proofs.Paths
import Toolrun.Proofs.Settings.Sources
import Toolrun.Proofs.Fallible
import Toolrun.Proofs.Settings.EnvTable
import Toolrun.Proofs.Settings.Fields
import Toolrun.Proofs.Layers
import Toolrun.Proofs.Toml.Cursor
import Toolrun.Proofs.Toml.Text
import Toolrun.Proofs.Toml.Assignment
import Toolrun.Proofs.Toml.Document
import Toolrun.Proofs.Settings.Printer
import Toolrun.Proofs.Json.Printer
import Toolrun.Proofs.Utf8
import Toolrun.Proofs.Report
import Toolrun.Proofs.Verdict
import Toolrun.Proofs.Relay
import Toolrun.Proofs.Preparation
import Toolrun.Proofs.Numeral
import Toolrun.Proofs.CommandLine.Reader
import Toolrun.Proofs.CommandLine.Placement
import Toolrun.Proofs.CommandLine.Written
import Toolrun.Proofs.Json.Grammar
import Toolrun.Proofs.Json.Tokens
import Toolrun.Proofs.Json.Values
import Toolrun.Proofs.ChangeSet
import Toolrun.Proofs.Json.Range
import Toolrun.Proofs.Arguments
import Toolrun.Proofs.Blank
import Toolrun.Proofs.ChangeSet.Layout
import Toolrun.Proofs.Directories
import Toolrun.Proofs.Settings.Surroundings
import Toolrun.Proofs.Effective
import Toolrun.Proofs.Host.Start
import Toolrun.Proofs.Host.Runner
import Toolrun.Proofs.Truncation
import Toolrun.Proofs.Delivery
import Toolrun.Proofs.Diagnostics
import Toolrun.Proofs.EnvPair
import Toolrun.Proofs.Account
import Toolrun.Proofs.CommandLine.Room
import Toolrun.Proofs.Overrides
import Toolrun.Proofs.Timeout
import Toolrun.Proofs.Logging
