import Subleq.Main
import Subleq.Proofs.Cell
import Subleq.Proofs.Machine.Cutting
import Subleq.Proofs.Machine.Histories
import Subleq.Session.Completion
import Subleq.Proofs.Assembly.Layout
import Subleq.Proofs.Assembly.Meaning
import Subleq.Proofs.Machine.Paths
import Subleq.Proofs.Assembly.Expansion
import Subleq.Proofs.Assembly.Simulation
import Subleq.Proofs.Assembly.Correctness
import Subleq.Proofs.Monitor.Session
import Subleq.Proofs.Monitor.Program
import Subleq.Proofs.Monitor.Paths
import Subleq.Proofs.Monitor.Statements
import Subleq.Proofs.Monitor.Letters
import Subleq.Proofs.Monitor.Digits
import Subleq.Proofs.Monitor.WordList
import Subleq.Proofs.Monitor.Actions
import Subleq.Proofs.Monitor.Evaluation
import Subleq.Proofs.Machine.Environments
import Subleq.Proofs.Machine.Resting
import Subleq.Proofs.Bench
import Subleq.Proofs.Host.Isolation
import Subleq.Proofs.Machine.Confinement
import Subleq.Proofs.Monitor.Integrity
import Subleq.Proofs.Machine.Feeding
import Subleq.Proofs.Monitor.EndOfInput
import Subleq.Proofs.Machine.Bounds
import Subleq.Proofs.Machine.Streams
import Subleq.Proofs.Monitor.Impostors
import Subleq.Proofs.Session.Output
import Subleq.Proofs.Assembly.Comparison
import Subleq.Proofs.Session.Current
import Subleq.Proofs.Host.Table
import Subleq.Proofs.Machine.Failures
import Subleq.Proofs.Machine.Loads
import Subleq.Proofs.Assembly.Names
import Subleq.Proofs.Assembly.Provenance
import Subleq.Proofs.Assembly.Relocation
import Subleq.Proofs.Assembly.Placement
import Subleq.Monitor.Source
import Subleq.Proofs.Monitor.Printing
import Subleq.Proofs.Assembly.Reading
import Subleq.Proofs.Monitor.Source
import Subleq.Proofs.Monitor.WordTables
import Subleq.Proofs.Session.FileLoads
import Subleq.Proofs.Assembly.Grammar
import Subleq.Proofs.Assembly.Acceptance
import Subleq.Proofs.Machine.Reloads
import Subleq.Proofs.Program.Places
import Subleq.Proofs.Assembly.Labels
import Subleq.Proofs.Session.Scripts
import Subleq.Proofs.Machine.Waiting
import Subleq.Proofs.Memory.Blocks
import Subleq.Proofs.Assembly.Aliasing
import Subleq.Proofs.Session.Completion
import Subleq.Proofs.Cell.Residue
import Subleq.Proofs.SelfCheck
