import Peal.Library.Fallible
import Peal.Library.Runs
import Peal.Library.UniformPrice
import Peal.Library.SortedPairTree
import Peal.Auction.Types
import Peal.Auction.Math
import Peal.Auction.ClearingPrice
import Peal.Auction.CommitteeRegistry
import Peal.Auction.ERC20
import Peal.Auction.Contract
import Peal.Auction.Calls
import Peal.Auction.Effects
import Peal.Library.Rows
import Peal.Auction.Tally
import Peal.Auction.Reveal
import Peal.Auction.Settlement
import Peal.Auction.Solvency
import Peal.Auction.QuoteSolvency
import Peal.Auction.RevealBinding
import Peal.Auction.Recovery
import Peal.Links.Types
import Peal.Library.AppendTree
import Peal.Links.Ledger
import Peal.Links.Reopen
import Peal.Links.Blocks
import Peal.Links.Settled
import Peal.Links.Restart
import Peal.Links.DepositId
import Peal.Links.Oracle
import Peal.Links.MintOnce
import Peal.Links.Wallet
import Peal.Links.Journal
import Peal.Library.Programs
import Peal.Links.Watcher
import Peal.Links.Recorded
import Peal.Actions.Commitment
import Peal.Actions.Inclusion
import Peal.Mempool.Contracts
import Peal.Mempool.SealedOrders
import Peal.Auction.Preview
import Peal.Auction.PlanReveal
import Peal.Auction.PlanAccepted
import Peal.Links.Delivery
import Peal.Coordinator.Rounds
import Peal.Coordinator.Requests
import Peal.Coordinator.AuctionRules
import Peal.Coordinator.Idempotency
import Peal.Coordinator.Engine
import Peal.Coordinator.Freeze
import Peal.Coordinator.SealProof
import Peal.Coordinator.Shares
import Peal.Coordinator.Effects
import Peal.Coordinator.Reveal
import Peal.Coordinator.Slots
import Peal.Coordinator.Ordering
import Peal.Gateway.Contract
import Peal.Gateway.Release
import Peal.Mempool.RootBinding
import Peal.Auction.SaleAccounting
import Peal.Auction.AddressCap
import Peal.Library.Methods
import Peal.Library.TreeLevels
import Peal.Links.OpenLedger
import Peal.Links.Atomicity
import Peal.Links.Batch
import Peal.Links.Replay
import Peal.Links.Deposits
import Peal.Links.Agreement
import Peal.Library.Interleaving
import Peal.Links.Settlement
import Peal.Auction.Allocation
import Peal.Auction.Exit
import Peal.Auction.Attestation
import Peal.Auction.RevealOrder
import Peal.Coordinator.Layout
import Peal.Library.Encoding
import Peal.Links.SignedPayloads
import Peal.Bte.Wire
import Peal.Bte.Codec
import Peal.Consensus.Actor
import Peal.Consensus.Mempool
import Peal.Consensus.Application
import Peal.Links.Backups
import Peal.Coordinator.Deadline
import Peal.Library.Utf8
import Peal.Live.Record
import Peal.Live.Board
import Peal.Library.RootLoops
import Peal.Sdk.Anchor
import Peal.Sdk.RootParity
import Peal.Mempool.Isolation
import Peal.Library.Json
import Peal.Actions.Canonical
import Peal.Library.JsStrings
import Peal.Actions.Intent
import Peal.Actions.ZeroEx
import Peal.Actions.Receipt
import Peal.Consensus.Encoding
import Peal.Consensus.Proposal
import Peal.Coordinator.Reads
import Peal.Coordinator.QuietRounds
import Peal.Library.JsNumbers
import Peal.Coordinator.PageLinks
import Peal.Auction.DemandArray
import Peal.Auction.Payments
import Peal.Library.PlainTree
import Peal.Links.ReceiptTree
import Peal.Links.ClaimedNodes
import Peal.Links.WalletCalls
import Peal.Links.ReceiptChecks
import Peal.Bte.Recover
import Peal.Library.Balances
import Peal.Library.ConstantProduct
import Peal.Mempool.Pricing
import Peal.Coordinator.IntentLog
import Peal.Links.Signing
import Peal.Links.Certificates
import Peal.Links.Withdrawals
import Peal.Library.Numerals
import Peal.Links.Directory
import Peal.Live.Amount
import Peal.Coordinator.Timestamps
import Peal.Library.Keyset
import Peal.Coordinator.Listing
import Peal.Library.Utf16
import Peal.Live.RecordCodec
import Peal.Live.Contact
import Peal.Library.Doubles
import Peal.Library.JsJson
import Peal.Live.PageTerms
import Peal.Live.Registry
import Peal.Live.Previews
import Peal.Live.Entries
import Peal.Actions.Lifecycle
import Peal.Links.Window
import Peal.Actions.Quoting
import Peal.Actions.Limits
import Peal.Links.PaymentRequests
import Peal.Coordinator.Metered
import Peal.Links.Account
import Peal.Links.Lineage
import Peal.Links.Retries
import Peal.Links.Approvals
import Peal.Links.Undelivered
import Peal.Library.Linearizable
import Peal.Links.LedgerActor
import Peal.Library.Bisection
import Peal.Mempool.Coverage
import Peal.Mempool.Sandwich
import Peal.Actions.IntentDigest
import Peal.Links.HexText
import Peal.Coordinator.IntentDigest
import Peal.Links.ProfileHash
import Peal.Links.Digests
import Peal.Consensus.Draining
import Peal.Library.JsDecimals
import Peal.Library.JsRender
import Peal.Actions.Serialisation
import Peal.Actions.NormalForms
import Peal.Actions.CanonicalTexts
import Peal.Actions.SealedPayloads
import Peal.Links.IssuedTimes
import Peal.Links.SignIn
import Peal.Links.SignInMessages
import Peal.Library.Notes
import Peal.Links.Conservation
import Peal.Auction.Listings
import Peal.Links.Backing
import Peal.Links.Sessions
import Peal.Names.ShortLinks
import Peal.Links.Envelope
