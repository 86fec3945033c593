import OrdWallet.Termination
import OrdWallet.Shortfall
import OrdWallet.Interleaving
import OrdWallet.Runes.Flow
import OrdWallet.Orchestrator
import OrdWallet.Indexer
import OrdWallet.Canister
import OrdWallet.Lifecycle
import OrdWallet.Awaits
import OrdWallet.Isolation
import OrdWallet.DistinctInputs
import OrdWallet.Locality
import OrdWallet.Independence
