import SyntheticLog.Main
import SyntheticLog.Session
import SyntheticLog.Random.Recipe
import SyntheticLog.Generator.Batch
import SyntheticLog.Record.Display
import SyntheticLog.Record.Shape
import SyntheticLog.Metrics
import SyntheticLog.Proofs.Populate.Prefix
import SyntheticLog.Proofs.Session.History
import SyntheticLog.Proofs.Record.Framing
import SyntheticLog.Proofs.Generator.Uses
import SyntheticLog.Proofs.Populate.Fixture
import SyntheticLog.Proofs.Generator.Fairness
import SyntheticLog.Proofs.Random.Loops
import SyntheticLog.Proofs.Random.Uniform
import SyntheticLog.Proofs.Random.Offsets
import SyntheticLog.Proofs.Generator.Rolls
import SyntheticLog.Proofs.Generator.Spending
import SyntheticLog.Proofs.Program.Endings
import SyntheticLog.Proofs.CommandLine.Values
import SyntheticLog.Proofs.CommandLine.Help
import SyntheticLog.Proofs.CommandLine.Eager
import SyntheticLog.Proofs.Random.Nesting
import SyntheticLog.Proofs.Generator.Hints
import SyntheticLog.Proofs.Populate.Reports
import SyntheticLog.Proofs.Program.Journal
import SyntheticLog.Proofs.Record.Displays
