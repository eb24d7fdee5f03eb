import Mathlib.Tactic

namespace Peal.Auction

inductive State where
  | created | funded | commitOpen | commitClosed | revealPending | revealing
  | readyToSettle | settled | failed | cancelled
  deriving DecidableEq, Repr

/-- Everything a call can revert with: the contract's own errors, `require` texts, the compiler's
panics (0x11 arithmetic, 0x12 division by zero) and a token that refuses a transfer. -/
inductive Revert where
  | badState (actual expected : State)
  | notIssuer
  | tooEarly
  | tooLate
  | badTick
  | badQuantity
  | tooManyBids
  | alreadyClaimed
  | notAllowlisted
  | commitmentMismatch
  | alreadyRevealed
  | insufficientSignatures (got need : Nat)
  | notCommitteeMember (signer : Nat)
  | signersNotSorted
  | revealIncomplete (processed committed : Nat)
  | nothingToClaim
  | feeOnTransferToken
  | rootAlreadyRegistered
  | invalidThreshold
  | zeroMember
  | duplicateMember (member : Nat)
  | invalidSignature
  | required (reason : String)
  | panic (code : Nat)
  | transferRefused
  deriving DecidableEq, Repr

structure Config where
  issuer : Nat
  saleToken : Nat
  quoteToken : Nat
  totalSupply : Nat
  saleDecimals : Nat
  reservePrice : Nat
  tickSize : Nat
  numTicks : Nat
  startTime : Nat
  endTime : Nat
  revealDeadline : Nat
  minBidQuantity : Nat
  maxQuantityPerAddress : Nat
  maxBids : Nat
  allowlistRoot : Nat
  protocolFeeBps : Nat
  feeRecipient : Nat
  committeeSetId : Nat
  encryptionEpoch : Nat
  voidDisputeWindow : Nat
  deriving DecidableEq, Repr

structure Bid where
  bidder : Nat
  commitment : Nat
  ciphertextHash : Nat
  escrow : Nat
  blockNumber : Nat
  revealed : Bool
  claimed : Bool
  voided : Bool
  quantity : Nat
  tick : Nat
  deriving DecidableEq, Repr

/-- An unwritten storage slot of the `bids` mapping reads as zeros. -/
instance : Inhabited Bid := ⟨⟨0, 0, 0, 0, 0, false, false, false, 0, 0⟩⟩

/-- Outcome of the clearing scan. -/
structure Result where
  cleared : Bool
  clearingTick : Nat
  supplySold : Nat
  demandAtClearingTick : Nat
  supplyForClearingTick : Nat
  deriving DecidableEq, Repr

instance : Inhabited Result := ⟨⟨false, 0, 0, 0, 0⟩⟩

/-- One revealed bid, as attested by the committee. -/
structure RevealEntry where
  bidId : Nat
  quantity : Nat
  tick : Nat
  salt : Nat
  bidVersion : Nat
  proof : List Nat
  deriving DecidableEq, Repr

end Peal.Auction
