import Abacus.Main
import Abacus.Proofs.CommandLine.Listings
import Abacus.Proofs.CommandLine.ScriptDialogue
import Abacus.Proofs.Dialogue.HistoryFile
import Abacus.Proofs.EnvFile.Loading
import Abacus.Proofs.EnvFile.Quoting
import Abacus.Proofs.Expr.Necessary
import Abacus.Proofs.Expr.Reprint
import Abacus.Proofs.Grammar.Height
import Abacus.Proofs.Grammar.Leftmost
import Abacus.Proofs.Grammar.Lockstep
import Abacus.Proofs.Machine.Reentrancy
import Abacus.Proofs.Program.Balance
import Abacus.Proofs.Program.Evaluation
import Abacus.Proofs.Program.Listing
import Abacus.Proofs.Session.CallChains
import Abacus.Proofs.Session.History
import Abacus.Proofs.Session.Holding
import Abacus.Proofs.Session.Independence
import Abacus.Proofs.Session.Simulation
import Abacus.Proofs.Session.Substitution
import Abacus.Proofs.StackPool.Lending
import Abacus.Span
