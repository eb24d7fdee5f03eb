import Peal.Auction.Contract
import Peal.Library.Runs

namespace Peal.Auction
open Peal.Fallible Peal.SortedPairTree Peal.Runs SealedBidAuction

namespace World

variable (env : Env) (w : World) (msg : Msg env)

/-- `IERC20(saleToken).safeTransfer`, paid by the contract. -/
def paySale (recipient amount : Nat) : Except Revert World := do
  let sale ← w.sale.transfer env.self recipient amount
  .ok { w with sale := sale }

def payQuote (recipient amount : Nat) : Except Revert World := do
  let quote ← w.quote.transfer env.self recipient amount
  .ok { w with quote := quote }

/-- The payments the contract makes only when the amount is positive. -/
def paySaleIfAny (recipient amount : Nat) : Except Revert World :=
  if 0 < amount then w.paySale env recipient amount else .ok w

def payQuoteIfAny (recipient amount : Nat) : Except Revert World :=
  if 0 < amount then w.payQuote env recipient amount else .ok w

def fund : Except Revert World := do
  w.auction.inState .created
  let sale ← w.sale.transferFrom env.self msg.sender env.self w.auction.config.totalSupply
  let received ← checkedSub (.panic 0x11) (sale.balanceOf env.self) (w.sale.balanceOf env.self)
  require (received = w.auction.config.totalSupply) .feeOnTransferToken
  .ok { w with sale := sale, auction := { w.auction with state := .funded } }

def cancel : Except Revert World := do
  onlyIssuer env w.auction msg
  let cancelled := { w with auction := { w.auction with state := .cancelled } }
  if w.auction.state = .created then .ok cancelled
  else if w.auction.state = .funded ∨
      (w.auction.state = .commitOpen ∧ w.auction.committedBidCount = 0) then
    cancelled.paySale env w.auction.config.issuer w.auction.config.totalSupply
  else .error (.badState w.auction.state .funded)

def allowlistLeaf (sender : Nat) : Nat := env.keccak256 [env.keccak256 [sender]]

def commitBid (commitment ciphertextHash escrowAmount : Nat) (allowlistProof : List Nat) :
    Except Revert World := do
  let cfg := w.auction.config
  w.auction.inState .commitOpen
  require (cfg.startTime ≤ msg.timestamp) .tooEarly
  require (msg.timestamp < cfg.endTime) .tooLate
  require (w.auction.committedBidCount < cfg.maxBids) .tooManyBids
  require (escrowAmount ≠ 0) .badQuantity
  require (commitment ≠ 0 ∧ ciphertextHash ≠ 0) .commitmentMismatch
  require (cfg.allowlistRoot = 0 ∨
    climb env.keccak256 (allowlistLeaf env msg.sender) allowlistProof = cfg.allowlistRoot) .notAllowlisted
  let quote ← w.quote.transferFrom env.self msg.sender env.self escrowAmount
  let received ← checkedSub (.panic 0x11) (quote.balanceOf env.self) (w.quote.balanceOf env.self)
  require (received = escrowAmount) .feeOnTransferToken
  let _ ← checked (.panic 0x11) 32 (w.auction.committedBidCount + 1)
  let b : Bid := ⟨msg.sender, commitment, ciphertextHash, escrowAmount, msg.blockNumber % 2 ^ 64,
    false, false, false, 0, 0⟩
  .ok { w with quote := quote, auction := { w.auction with bids := w.auction.bids ++ [b] } }

/-- The permit is tried first and its failure swallowed; whether the quote token accepts the
signature is the token's decision. -/
def commitBidWithPermit (commitment ciphertextHash escrowAmount : Nat) (allowlistProof : List Nat)
    (permitAccepted : Bool) : Except Revert World := do
  w.auction.inState .commitOpen
  let permitted := if permitAccepted then
      { w with quote := w.quote.approve msg.sender env.self escrowAmount } else w
  permitted.commitBid env msg commitment ciphertextHash escrowAmount allowlistProof

/-- Claim tokens and any refund; the amounts are the call's return values. -/
def claim (bidId : Nat) : Except Revert (World × Nat × Nat) := do
  let b := w.auction.bid bidId
  require (b.bidder ≠ 0) .nothingToClaim
  require (b.claimed = false) .alreadyClaimed
  require (w.auction.state = .settled ∨ w.auction.state = .failed ∨ w.auction.state = .cancelled)
    (.badState w.auction.state .settled)
  let (tokens, refund) ← w.auction.claimAmounts b
  let marked := { w with auction := w.auction.setBid bidId { b with claimed := true } }
  let paid ← marked.paySaleIfAny env b.bidder tokens
  let done ← paid.payQuoteIfAny env b.bidder refund
  .ok (done, tokens, refund)

def claimProceeds : Except Revert World := do
  onlyIssuer env w.auction msg
  w.auction.inState .settled
  require (w.auction.issuerProceedsClaimed = false) .alreadyClaimed
  let net ← checkedSub (.panic 0x11) w.auction.grossProceeds w.auction.protocolFee
  let marked := { w with auction := { w.auction with issuerProceedsClaimed := true } }
  let feePaid ← marked.payQuoteIfAny env w.auction.config.feeRecipient w.auction.protocolFee
  feePaid.payQuoteIfAny env w.auction.config.issuer net

def claimUnsold : Except Revert World := do
  onlyIssuer env w.auction msg
  require (w.auction.state = .settled ∨ w.auction.state = .failed) (.badState w.auction.state .settled)
  require (w.auction.issuerUnsoldClaimed = false) .alreadyClaimed
  let supplySold := if w.auction.state = .settled then w.auction.clearing.supplySold else 0
  let unsold ← checkedSub (.panic 0x11) w.auction.config.totalSupply supplySold
  let marked := { w with auction := { w.auction with issuerUnsoldClaimed := true } }
  marked.paySaleIfAny env w.auction.config.issuer unsold

end World

/-- The transactions that can change an auction, its registry or its tokens. -/
inductive Call where
  | fund
  | openCommit
  | cancel
  | commitBid (commitment ciphertextHash escrowAmount : Nat) (allowlistProof : List Nat)
  | commitBidWithPermit (commitment ciphertextHash escrowAmount : Nat) (allowlistProof : List Nat)
      (permitAccepted : Bool)
  | registerBatch (batchCommitment : Nat)
  | closeCommit
  | registerRevealRoot (root bidCount : Nat) (signatures : List (List Nat))
  | processReveals (entries : List RevealEntry)
  | disputeVoid (bidId quantity tick salt bidVersion : Nat)
  | finalize
  | failOnRevealTimeout
  | claim (bidId : Nat)
  | claimProceeds
  | claimUnsold
  | registerCommitteeSet (threshold : Nat) (members : List Nat)
  | elsewhere (sale quote : ERC20)

/-- A step on the auction's own storage, lifted to the world. -/
def World.onAuction (w : World) (x : Except Revert SealedBidAuction) : Except Revert World := do
  let a ← x
  .ok { w with auction := a }

/-- One transaction. `elsewhere` is everything other accounts do on the two tokens: transfers,
approvals, mints. The contract approves nobody, so none of it lowers the contract's own balances. -/
def step (env : Env) (w : World) : Msg env × Call → Except Revert World
  | (msg, .fund) => w.fund env msg
  | (msg, .openCommit) => w.onAuction (w.auction.openCommit env msg)
  | (msg, .cancel) => w.cancel env msg
  | (msg, .commitBid commitment ciphertextHash escrowAmount allowlistProof) =>
    w.commitBid env msg commitment ciphertextHash escrowAmount allowlistProof
  | (msg, .commitBidWithPermit commitment ciphertextHash escrowAmount allowlistProof accepted) =>
    w.commitBidWithPermit env msg commitment ciphertextHash escrowAmount allowlistProof accepted
  | (_, .registerBatch batchCommitment) => w.onAuction (w.auction.registerBatch batchCommitment)
  | (msg, .closeCommit) => w.onAuction (w.auction.closeCommit env msg)
  | (msg, .registerRevealRoot root bidCount signatures) =>
    w.onAuction (w.auction.registerRevealRoot env msg w.registry root bidCount signatures)
  | (msg, .processReveals entries) => w.onAuction (w.auction.processReveals env msg entries)
  | (_, .disputeVoid bidId quantity tick salt bidVersion) =>
    w.onAuction (w.auction.disputeVoid env bidId quantity tick salt bidVersion)
  | (msg, .finalize) => w.onAuction (w.auction.finalize env msg)
  | (msg, .failOnRevealTimeout) => w.onAuction (w.auction.failOnRevealTimeout env msg)
  | (_, .claim bidId) => do
    let (w', _, _) ← w.claim env bidId
    .ok w'
  | (msg, .claimProceeds) => w.claimProceeds env msg
  | (msg, .claimUnsold) => w.claimUnsold env msg
  | (msg, .registerCommitteeSet threshold members) => do
    let registry ← w.registry.registerCommitteeSet env.keccak256 msg.timestamp threshold members
    .ok { w with registry := registry }
  | (_, .elsewhere sale quote) => do
    require (w.sale.balanceOf env.self ≤ sale.balanceOf env.self ∧
      w.quote.balanceOf env.self ≤ quote.balanceOf env.self) .transferRefused
    .ok { w with sale := sale, quote := quote }

end Peal.Auction
