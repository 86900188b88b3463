import FinP2PAdapter.Library.Machine
import FinP2PAdapter.Library.JsMap
import FinP2PAdapter.Library.Throws
import FinP2PAdapter.Skeleton.Types
import FinP2PAdapter.OnChain.BusinessDetails
import FinP2PAdapter.OnChain.TokenService
import FinP2PAdapter.Operations.OperationContext
import FinP2PAdapter.Accounts.AccountResolver
import FinP2PAdapter.Custody.NetworkAccounts
import FinP2PAdapter.Custody.BindingConsistency
import FinP2PAdapter.Library.Words
import FinP2PAdapter.Omnibus.InboundVerification
import FinP2PAdapter.Omnibus.EscrowMoves
import FinP2PAdapter.Library.Submissions
import FinP2PAdapter.Deposits.ApprovalWatcher
import FinP2PAdapter.Deposits.PullOnce
import FinP2PAdapter.Deposits.ApprovalCursor
import FinP2PAdapter.Deposits.BalanceWatcher
import FinP2PAdapter.Deposits.SweepOnce
import FinP2PAdapter.Deposits.PullRecords
import FinP2PAdapter.Library.Deliveries
import FinP2PAdapter.Deposits.PullPlugin
import FinP2PAdapter.Deposits.WatcherCreation
import FinP2PAdapter.Deposits.OtaPlugin
import FinP2PAdapter.Deposits.NoCreditLost
import FinP2PAdapter.Library.Decimals
import FinP2PAdapter.Deposits.PullProvenance
import FinP2PAdapter.Deposits.VerifiedDeposits
import FinP2PAdapter.Custody.TokenOperations
import FinP2PAdapter.Custody.EscrowOperations
import FinP2PAdapter.Omnibus.OutboundTransfer
import FinP2PAdapter.Library.Checks
import FinP2PAdapter.PlanApproval.Introspection
import FinP2PAdapter.PlanApproval.ConfigurableService
import FinP2PAdapter.PlanApproval.TokenWhitelisting
import FinP2PAdapter.PlanApproval.GasPrefunding
import FinP2PAdapter.GasStation.Funding
import FinP2PAdapter.GasStation.Prefunded
import FinP2PAdapter.GasStation.OneTransaction
import FinP2PAdapter.OnChain.NetworkAccounts
import FinP2PAdapter.Fireblocks.Vaults
import FinP2PAdapter.Fireblocks.SharedScan
import FinP2PAdapter.Fireblocks.VaultLookup
import FinP2PAdapter.Library.Holdings
import FinP2PAdapter.TokenStandards.HoldModels
import FinP2PAdapter.Custody.HeldTokens
import FinP2PAdapter.Library.Renames
import FinP2PAdapter.Migration.LegacyTables
import FinP2PAdapter.Migration.Interleavings
import FinP2PAdapter.Migration.CoDeployed
import FinP2PAdapter.Migration.Replicas
import FinP2PAdapter.Custody.OperationRuns
import FinP2PAdapter.Omnibus.Egress
import FinP2PAdapter.OnChain.LegDetection
import FinP2PAdapter.Deposits.BatchOrder
import FinP2PAdapter.Deposits.PollingTimers
import FinP2PAdapter.Deposits.PullAmounts
import FinP2PAdapter.Deposits.CursorWrites
import FinP2PAdapter.Deposits.ApprovalsKept
import FinP2PAdapter.Library.Finality
import FinP2PAdapter.Omnibus.Reorganisations
import FinP2PAdapter.Custody.SteadyWorld
import FinP2PAdapter.Library.Tallies
import FinP2PAdapter.PlanApproval.PrefundingRuns
import FinP2PAdapter.PlanApproval.CustodyPlanApproval
import FinP2PAdapter.Accounts.InvestorWhitelist
import FinP2PAdapter.Deposits.DepositTargets
import FinP2PAdapter.TokenStandards.AssetCreation
import FinP2PAdapter.Library.Redaction
import FinP2PAdapter.Logging.SecretRedaction
import FinP2PAdapter.Dfns.WalletLookup
import FinP2PAdapter.Scripts.MassApprove
import FinP2PAdapter.Library.Interrupts
import FinP2PAdapter.Scripts.Migration
import FinP2PAdapter.Scripts.MigrationResumed
import FinP2PAdapter.TokenStandards.AtsPolicy
import FinP2PAdapter.OnChain.ExecutionContexts
import FinP2PAdapter.Library.JsNumber
import FinP2PAdapter.Library.JsArithmetic
import FinP2PAdapter.Fireblocks.RateLimits
import FinP2PAdapter.Fireblocks.Pagination
import FinP2PAdapter.Library.Pools
import FinP2PAdapter.Library.SingleCall
import FinP2PAdapter.Library.Polling
import FinP2PAdapter.Scripts.CommandLine
import FinP2PAdapter.Omnibus.PooledTokens
import FinP2PAdapter.Omnibus.DelegateRuns
import FinP2PAdapter.Omnibus.SteadyDelegate
import FinP2PAdapter.OnChain.ServiceRuns
import FinP2PAdapter.GasStation.TimedFunding
import FinP2PAdapter.Library.Growing
import FinP2PAdapter.Boot.SignerPool
import FinP2PAdapter.Boot.TokenStandards
import FinP2PAdapter.Boot.Payments
import FinP2PAdapter.Boot.App
import FinP2PAdapter.Custody.MappingApi
import FinP2PAdapter.Fireblocks.RawSigner
import FinP2PAdapter.Fireblocks.SigningCalls
import FinP2PAdapter.Fireblocks.RawSignatures
import FinP2PAdapter.Fireblocks.VaultTransfers
import FinP2PAdapter.Scripts.SyncBalances
import FinP2PAdapter.Scripts.SyncRuns
import FinP2PAdapter.Library.Registers
import FinP2PAdapter.OnChain.CredentialsRegistry
import FinP2PAdapter.OnChain.CredentialLookups
