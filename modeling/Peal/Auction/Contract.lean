import Peal.Auction.ClearingPrice
import Peal.Auction.CommitteeRegistry
import Peal.Auction.ERC20
import Peal.Library.SortedPairTree

namespace Peal.Auction
open Peal.Fallible Peal.SortedPairTree

/-- What the chain fixes for one auction: its hash function on words, its id, the address of the
contract, signature recovery, and the hashes of the EIP-712 type strings. -/
structure Env where
  keccak256 : List Nat → Nat
  chainid : Nat
  self : Nat
  recover : Nat → List Nat → Option Nat
  bidCommitmentTypehash : Nat
  revealRootTypehash : Nat
  domainTypehash : Nat
  nameHash : Nat
  versionHash : Nat

/-- The sender and block of a transaction; the contract never calls itself. -/
structure Msg (env : Env) where
  sender : Nat
  timestamp : Nat
  blockNumber : Nat
  sender_ne_zero : sender ≠ 0
  sender_ne_self : sender ≠ env.self

/-- The storage of one auction. The `bids` mapping is the list of its written slots, so
`committedBidCount` is its length. -/
structure SealedBidAuction where
  config : Config
  state : State
  bids : List Bid
  processedBidCount : Nat
  voidedBidCount : Nat
  lastVoidAt : Nat
  revealRoot : Nat
  clearing : Result
  clearingPrice : Nat
  grossProceeds : Nat
  protocolFee : Nat
  issuerProceedsClaimed : Bool
  issuerUnsoldClaimed : Bool
  demandByTick : Nat → Nat
  batchCommitments : List Nat

structure World where
  auction : SealedBidAuction
  registry : CommitteeRegistry
  sale : ERC20
  quote : ERC20

def initializeAuction (registry : CommitteeRegistry) (cfg : Config) : Except Revert SealedBidAuction := do
  require (cfg.issuer ≠ 0) (.required "issuer")
  require (cfg.saleToken ≠ 0 ∧ cfg.quoteToken ≠ 0) (.required "tokens")
  require (cfg.saleToken ≠ cfg.quoteToken) (.required "same token")
  require (0 < cfg.totalSupply) (.required "supply")
  require (0 < cfg.numTicks ∧ cfg.numTicks ≤ maxTicks) (.required "ticks")
  require (cfg.startTime < cfg.endTime) (.required "schedule")
  require (cfg.endTime < cfg.revealDeadline) (.required "reveal window")
  let disputeEnd ← checked (.panic 0x11) 64 (cfg.endTime + cfg.voidDisputeWindow)
  require (disputeEnd ≤ cfg.revealDeadline) (.required "reveal window too short")
  require (cfg.protocolFeeBps ≤ 1000) (.required "fee too high")
  require (cfg.feeRecipient ≠ 0 ∨ cfg.protocolFeeBps = 0) (.required "fee recipient")
  require (registry.existsSet cfg.committeeSetId) (.required "committee")
  .ok ⟨cfg, .created, [], 0, 0, 0, 0, default, 0, 0, 0, false, false, fun _ => 0, []⟩

namespace SealedBidAuction

variable (env : Env) (a : SealedBidAuction) (msg : Msg env)

def committedBidCount : Nat := a.bids.length

def bid (bidId : Nat) : Bid := a.bids.getD bidId default

def setBid (bidId : Nat) (b : Bid) : SealedBidAuction := { a with bids := a.bids.set bidId b }

def inState (expected : State) : Except Revert Unit :=
  require (a.state = expected) (.badState a.state expected)

def onlyIssuer : Except Revert Unit := require (msg.sender = a.config.issuer) .notIssuer

def openCommit : Except Revert SealedBidAuction := do
  a.inState .funded
  require (a.config.startTime ≤ msg.timestamp) .tooEarly
  .ok { a with state := .commitOpen }

def registerBatch (batchCommitment : Nat) : Except Revert SealedBidAuction := do
  a.inState .commitOpen
  .ok { a with batchCommitments := a.batchCommitments ++ [batchCommitment] }

def closeCommit : Except Revert SealedBidAuction := do
  a.inState .commitOpen
  require (a.config.endTime ≤ msg.timestamp) .tooEarly
  .ok { a with state := if a.committedBidCount = 0 then .failed else .commitClosed }

/-! ### Reveal -/

def domainSeparator : Nat :=
  env.keccak256 [env.domainTypehash, env.nameHash, env.versionHash, env.chainid, env.self]

/-- The signed digest; its first word stands for the two bytes `"\x19\x01"`. -/
def revealRootDigest (root bidCount : Nat) : Nat :=
  env.keccak256 [0x1901, domainSeparator env,
    env.keccak256 [env.revealRootTypehash, env.self, env.chainid, a.config.committeeSetId,
      a.config.encryptionEpoch, root, bidCount]]

def nextSigner (registry : CommitteeRegistry) (digest last : Nat) (signature : List Nat) :
    Except Revert Nat :=
  match env.recover digest signature with
  | none => .error .invalidSignature
  | some signer => do
    require (last < signer) .signersNotSorted
    require (registry.isMember a.config.committeeSetId signer) (.notCommitteeMember signer)
    .ok signer

def registerRevealRoot (registry : CommitteeRegistry) (root bidCount : Nat)
    (signatures : List (List Nat)) : Except Revert SealedBidAuction := do
  a.inState .commitClosed
  require (msg.timestamp < a.config.revealDeadline) .tooLate
  require (a.revealRoot = 0) .rootAlreadyRegistered
  require (bidCount = a.committedBidCount) (.revealIncomplete bidCount a.committedBidCount)
  let threshold := registry.thresholdOf a.config.committeeSetId
  require (threshold ≤ signatures.length) (.insufficientSignatures signatures.length threshold)
  let _ ← signatures.foldlM (nextSigner env a registry (revealRootDigest env a root bidCount)) 0
  .ok { a with revealRoot := root, state := .revealing }

def revealLeaf (bidId quantity tick salt : Nat) : Nat :=
  env.keccak256 [env.keccak256 [bidId, quantity, tick, salt]]

def bidCommitment (bidder quantity maxPriceTick salt bidVersion : Nat) : Nat :=
  env.keccak256 [env.bidCommitmentTypehash, env.chainid, env.self, bidder, quantity, maxPriceTick,
    salt, bidVersion]

def isEligible (cfg : Config) (b : Bid) (qty tick : Nat) : Except Revert Bool :=
  if qty < cfg.minBidQuantity then .ok false
  else if cfg.maxQuantityPerAddress ≠ 0 ∧ cfg.maxQuantityPerAddress < qty then .ok false
  else do
    let needed ← escrowFor qty cfg.reservePrice cfg.tickSize tick cfg.saleDecimals
    .ok (decide (needed ≤ b.escrow))

/-- The commitment mismatch branch of `_processOne`: the bid is voided, not reverted. -/
def voidBid (bidId : Nat) (b : Bid) : Except Revert SealedBidAuction := do
  let voided ← checked (.panic 0x11) 32 (a.voidedBidCount + 1)
  .ok { a.setBid bidId { b with revealed := true, voided := true } with
    voidedBidCount := voided, lastVoidAt := msg.timestamp % 2 ^ 64 }

/-- Its matching branch: the plaintext is recorded and counted as demand when eligible. -/
def recordBid (e : RevealEntry) (b : Bid) : Except Revert SealedBidAuction := do
  let revealed := { b with revealed := true, quantity := e.quantity, tick := e.tick }
  let recorded := a.setBid e.bidId revealed
  if ← isEligible a.config revealed e.quantity e.tick then do
    let demand ← uint256 (a.demandByTick e.tick + e.quantity)
    .ok { recorded with demandByTick := Function.update a.demandByTick e.tick demand }
  else .ok recorded

def processOne (e : RevealEntry) : Except Revert SealedBidAuction := do
  let b := a.bid e.bidId
  require (b.bidder ≠ 0) .commitmentMismatch
  require (b.revealed = false) .alreadyRevealed
  require (e.tick < a.config.numTicks) .badTick
  require (climb env.keccak256 (revealLeaf env e.bidId e.quantity e.tick e.salt) e.proof = a.revealRoot)
    .commitmentMismatch
  let processed ← checked (.panic 0x11) 32 (a.processedBidCount + 1)
  let a := { a with processedBidCount := processed }
  if bidCommitment env b.bidder e.quantity e.tick e.salt e.bidVersion ≠ b.commitment then
    voidBid env a msg e.bidId b
  else recordBid a e b

def processReveals (entries : List RevealEntry) : Except Revert SealedBidAuction := do
  a.inState .revealing
  entries.foldlM (fun a e => processOne env a msg e) a

/-! ### Settlement -/

def disputeVoid (bidId quantity tick salt bidVersion : Nat) : Except Revert SealedBidAuction := do
  a.inState .revealing
  let b := a.bid bidId
  require (b.voided = true) .nothingToClaim
  require (bidCommitment env b.bidder quantity tick salt bidVersion = b.commitment) .commitmentMismatch
  .ok { a with state := .failed }

def disputeWindowPassed : Except Revert Unit :=
  if 0 < a.voidedBidCount then do
    let disputeEnd ← checked (.panic 0x11) 64 (a.lastVoidAt + a.config.voidDisputeWindow)
    require (disputeEnd ≤ msg.timestamp) .tooEarly
  else .ok ()

def demand : List Nat := (List.range a.config.numTicks).map a.demandByTick

def settle (r : Result) : Except Revert SealedBidAuction := do
  let price ← priceAt a.config.reservePrice a.config.tickSize r.clearingTick
  let gross ← costFloor r.supplySold price a.config.saleDecimals
  let fee ← feeOn gross a.config.protocolFeeBps
  .ok { a with
    clearing := r, clearingPrice := price, grossProceeds := gross, protocolFee := fee,
    state := .settled }

def finalize : Except Revert SealedBidAuction := do
  a.inState .revealing
  disputeWindowPassed env a msg
  require (a.processedBidCount = a.committedBidCount)
    (.revealIncomplete a.processedBidCount a.committedBidCount)
  let r ← findClearingTick a.demand a.config.totalSupply
  if r.cleared then a.settle r
  else .ok { a with state := .failed }

def failOnRevealTimeout : Except Revert SealedBidAuction := do
  require (a.config.revealDeadline ≤ msg.timestamp) .tooEarly
  require (a.state = .commitClosed ∨ a.state = .revealing) (.badState a.state .revealing)
  .ok { a with state := .failed }

def allocationOf (b : Bid) : Except Revert Nat :=
  if a.state ≠ .settled ∨ b.revealed = false ∨ b.voided = true then .ok 0
  else do
    if ← isEligible a.config b b.quantity b.tick then allocationFor a.clearing b.quantity b.tick
    else .ok 0

/-- The tokens and the refund that `claim` pays for a bid. -/
def claimAmounts (b : Bid) : Except Revert (Nat × Nat) :=
  if a.state = .settled then do
    let tokens ← a.allocationOf b
    let paid ← costFloor tokens a.clearingPrice a.config.saleDecimals
    let refund ← checkedSub (.panic 0x11) b.escrow paid
    .ok (tokens, refund)
  else .ok (0, b.escrow)

end SealedBidAuction

end Peal.Auction
