import ShieldedLedger.General.CoinPool
import ShieldedLedger.AntispamPow.Threshold
import ShieldedLedger.AntispamQuota.Kernel
import ShieldedLedger.AntispamQuota.Secrecy
import ShieldedLedger.AntispamQuota.Registry
import ShieldedLedger.Encryption.RoundTrip
import ShieldedLedger.Emission.Fairness
import ShieldedLedger.Emission.Schedule
import ShieldedLedger.Tree.Growth
import ShieldedLedger.Tree.Window
import ShieldedLedger.Tx.Wire
import ShieldedLedger.Tx.Shape
import ShieldedLedger.Tx.Binding
import ShieldedLedger.ProverDev.PublicInputs
import ShieldedLedger.State.Inflation
import ShieldedLedger.State.Restart
import ShieldedLedger.State.Durability
import ShieldedLedger.State.Replay
import ShieldedLedger.State.RateLimit
import ShieldedLedger.State.Supply
import ShieldedLedger.State.AnchorAge
import ShieldedLedger.State.Epochs
import ShieldedLedger.State.RewardNonces
import ShieldedLedger.State.Underflow
import ShieldedLedger.State.ZeroWeight
import ShieldedLedger.State.SupplyCap
import ShieldedLedger.Consensus.Junk
import ShieldedLedger.Consensus.Linearisation
import ShieldedLedger.Wallet.Receipts
import ShieldedLedger.Wallet.Transfers
import ShieldedLedger.Wallet.Payments
import ShieldedLedger.Wallet.Sums
import ShieldedLedger.Wallet.Recipients
import ShieldedLedger.Node.Spentness
import ShieldedLedger.Node.Delivery
import ShieldedLedger.ProverDev.Diagnosis
import ShieldedLedger.ProverDev.Mutations
import ShieldedLedger.State.Judge
import ShieldedLedger.State.Cuts
import ShieldedLedger.Knockout
import ShieldedLedger.Knockout.Coverage
import ShieldedLedger.Consensus.Gossip
import ShieldedLedger.General.Accounts
import ShieldedLedger.Wallet.Completeness
import ShieldedLedger.Node.Lifecycle
import ShieldedLedger.State.Journal
import ShieldedLedger.State.Issuance
import ShieldedLedger.Node.Rescan
