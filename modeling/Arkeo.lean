import Arkeo.Exec
import Arkeo.Runs
import Arkeo.Text
import Arkeo.LetterCase
import Arkeo.Ledger
import Arkeo.LegacyDec
import Arkeo.Rounding
import Arkeo.Json
import Arkeo.Tokens
import Arkeo.Quorum
import Arkeo.SecondaryIndex
import Arkeo.Select
import Arkeo.KeyedStore
import Arkeo.Types
import Arkeo.Services
import Arkeo.Keeper
import Arkeo.Manager
import Arkeo.MsgServer
import Arkeo.World
import Arkeo.KeeperSpec
import Arkeo.Lifecycle
import Arkeo.Settlement
import Arkeo.Invariant
import Arkeo.Handlers
import Arkeo.EndBlock
import Arkeo.Reachable
import Arkeo.Writes
import Arkeo.Registry
import Arkeo.Expiry
import Arkeo.Frames
import Arkeo.Solvency
import Arkeo.Conservation
import Arkeo.Payment
import Arkeo.Deposits
import Arkeo.History
import Arkeo.UserIndex
import Arkeo.Schedule
import Arkeo.Bonds
import Arkeo.Closing
import Arkeo.BondSolvency
import Arkeo.Withdrawal
import Arkeo.CrossChain
import Arkeo.Versions
import Arkeo.VersionConsensus
import Arkeo.StoreKeys
import Arkeo.Shares
import Arkeo.ShareBounds
import Arkeo.ReserveTax
import Arkeo.ValidatorPayout
import Arkeo.Genesis
import Arkeo.RoundTrip
import Arkeo.EventNames
import Arkeo.Phases
import Arkeo.Halting
import Arkeo.Emission
import Arkeo.Sentinel.Proxy
import Arkeo.Sentinel.Spec
import Arkeo.Sentinel.Domains
import Arkeo.Sentinel.ArkAuth
import Arkeo.Sentinel.Claims
import Arkeo.Sentinel.Memory
import Arkeo.Sentinel.Claimable
import Arkeo.Sentinel.Provenance
import Arkeo.Sentinel.Gate
import Arkeo.Sentinel.Allowance
import Arkeo.Sentinel.Redirect
import Arkeo.AllServices
import Arkeo.Sentinel.Replay
import Arkeo.Sentinel.Integrity
import Arkeo.Sentinel.Race
import Arkeo.Sentinel.Fetch
import Arkeo.Sentinel.Settings
import Arkeo.Sentinel.Mirror
import Arkeo.Sentinel.Deployment
import Arkeo.Sentinel.OpenClaims
import Arkeo.Directory.Store
import Arkeo.Directory.Search
import Arkeo.Directory.Spec
import Arkeo.Directory.Decoder
import Arkeo.Directory.Codecs
import Arkeo.Directory.TypedEvents
import Arkeo.Directory.Transparency
import Arkeo.Directory.Indexer
import Arkeo.Directory.GapFilling
import Arkeo.Directory.Contracts
import Arkeo.Directory.Listing
import Arkeo.Directory.Providers
import Arkeo.Directory.Replay
import Arkeo.Airdrop.Spec
import Arkeo.Airdrop.Conservation
import Arkeo.Airdrop.Claimable
import Arkeo.Airdrop.Decay
import Arkeo.Airdrop.Ending
import Arkeo.Airdrop.Payout
import Arkeo.Airdrop.Merging
import Arkeo.Airdrop.Total
import Arkeo.Airdrop.Responses
import Arkeo.Airdrop.Upgrade
import Arkeo.Airdrop.Funding
import Arkeo.Debits
import Arkeo.Blocks
import Arkeo.Node
import Arkeo.Queries
