import Peal.Auction.Reveal
import Peal.Library.PromotedTree
import Peal.Library.Sha256

namespace Peal.Auction.Settler
open Peal.Fallible

/-! # From an opened batch to the reveal entries

The client's plan for a reveal: one entry for every committed bid, a placeholder where the opened payload is
not the bid that was committed. -/

abbrev Text := List Char

abbrev Bytes := List Nat

inductive RangeError where
  | notContiguous (saw at_ : Nat)
  | nothingCommitted
  | maxPriceTickNotUint16
  | bidVersionNotUint16
  | emptyTree
  deriving DecidableEq, Repr

structure BidPayload where
  chainId : Nat
  auction : Nat
  bidder : Nat
  quantity : Nat
  maxPriceTick : Nat
  salt : Nat
  bidVersion : Nat
  deriving DecidableEq, Repr

/-! ## payload.ts -/

def BID_PAYLOAD_MAGIC : Bytes := [0x50, 0x45, 0x41, 0x4c, 0x42, 0x49, 0x44, 0x31]

def BID_PAYLOAD_BYTES : Nat := BID_PAYLOAD_MAGIC.length + 7 * 32

def MAX_SAFE_INTEGER : Nat := 2 ^ 53 - 1

def wordAt (body : Bytes) (i : Nat) : Nat :=
  ((body.drop (32 * i)).take 32).foldl (fun acc b => 256 * acc + b) 0

/-- How the ABI library reads the word of a `uint16`; nothing when it throws. -/
abbrev DecodeUint16 := Nat → Option Nat

variable (decodeUint16 : DecodeUint16)

def decodeAbiParameters (body : Bytes) : Option BidPayload := do
  let maxPriceTick ← decodeUint16 (wordAt body 4)
  let bidVersion ← decodeUint16 (wordAt body 6)
  return {
    chainId := wordAt body 0
    auction := wordAt body 1 % 2 ^ 160
    bidder := wordAt body 2 % 2 ^ 160
    quantity := wordAt body 3
    maxPriceTick := maxPriceTick
    salt := wordAt body 5
    bidVersion := bidVersion }

def decodeBidPayload (bytes : Bytes) : Option BidPayload := do
  guard (bytes.length = BID_PAYLOAD_BYTES)
  guard (bytes.take BID_PAYLOAD_MAGIC.length = BID_PAYLOAD_MAGIC)
  let p ← decodeAbiParameters decodeUint16 (bytes.drop BID_PAYLOAD_MAGIC.length)
  guard (p.chainId ≤ MAX_SAFE_INTEGER)
  return p

/-! ## commitment.ts and merkle.ts -/

variable (env : Env)

def bidCommitment (p : BidPayload) : Except RangeError Nat := do
  require (p.maxPriceTick ≤ 0xffff) .maxPriceTickNotUint16
  require (p.bidVersion ≤ 0xffff) .bidVersionNotUint16
  return env.keccak256 [env.bidCommitmentTypehash, p.chainId, p.auction, p.bidder, p.quantity, p.maxPriceTick,
    p.salt, p.bidVersion]

def revealLeaf (bidId quantity tick salt : Nat) : Nat :=
  env.keccak256 [env.keccak256 [bidId, quantity, tick, salt]]

def hashPair (a b : Nat) : Nat := if a < b then env.keccak256 [a, b] else env.keccak256 [b, a]

/-- The siblings on the way up from an index, layer by layer. -/
def proofOf : Nat → List Nat → Nat → List Nat
  | 0, _, _ => []
  | fuel + 1, layer, i =>
    if 1 < layer.length then
      (layer[i ^^^ 1]?).toList ++ proofOf fuel (PromotedTree.levelUp (hashPair env) layer) (i / 2)
    else []

structure MerkleTree where
  root : Nat
  proofs : List (List Nat)

def merkleTree (leaves : List Nat) : Except RangeError MerkleTree := do
  let root ← expect (PromotedTree.rootOf (hashPair env) leaves) .emptyTree
  return ⟨root, (List.range leaves.length).map (proofOf env leaves.length leaves)⟩

/-! ## settle.ts -/

structure CommittedBidRef where
  bidId : Nat
  bidder : Nat
  commitment : Nat
  ciphertextHash : Text
  deriving DecidableEq, Repr

structure OpenedSlot where
  ctHash : Text
  payload : Bytes
  isDummy : Bool
  deriving DecidableEq, Repr

inductive UnmatchedReason where
  | ciphertextNotInBatch
  | payloadIsNotABid
  | payloadNamesAnotherAuction
  | payloadNamesAnotherBidder
  | payloadDoesNotMatchCommitment
  deriving DecidableEq, Repr

structure RevealPlan where
  entries : List RevealEntry
  root : Nat
  bidCount : Nat
  matched : List Nat
  unmatched : List (Nat × UnmatchedReason)

/-- The payload of the entry that the contract voids. -/
def VOID : BidPayload where
  chainId := 0
  auction := 0
  bidder := 0
  quantity := 0
  maxPriceTick := 0
  salt := 0
  bidVersion := 0

def trim (s : Text) : Text := ((s.dropWhile Char.isWhitespace).reverse.dropWhile Char.isWhitespace).reverse

def normHash (h : Text) : Text :=
  match (trim h).map Char.toLower with
  | '0' :: 'x' :: rest => rest
  | s => s

def byId (bids : List CommittedBidRef) : List CommittedBidRef := bids.insertionSort fun a b => a.bidId ≤ b.bidId

def requireContiguous : Nat → List CommittedBidRef → Except RangeError Unit
  | _, [] => .ok ()
  | i, b :: rest => do
    require (b.bidId = i) (.notContiguous b.bidId i)
    requireContiguous (i + 1) rest

/-- The payload opened for a ciphertext hash; a later slot replaces an earlier one. -/
def byHash (slots : List OpenedSlot) (h : Text) : Option Bytes :=
  ((slots.filter fun s => !s.isDummy && normHash s.ctHash == normHash h).getLast?).map OpenedSlot.payload

/-- What an opened batch makes of one bid: its payload, or why there is none. -/
def decide_ (chainId auction : Nat) (slots : List OpenedSlot) (b : CommittedBidRef) :
    Except RangeError (UnmatchedReason ⊕ BidPayload) :=
  match byHash slots b.ciphertextHash with
  | none => .ok (.inl .ciphertextNotInBatch)
  | some payload =>
    match decodeBidPayload decodeUint16 payload with
    | none => .ok (.inl .payloadIsNotABid)
    | some p =>
      if p.chainId ≠ chainId ∨ p.auction ≠ auction then .ok (.inl .payloadNamesAnotherAuction)
      else if p.bidder ≠ b.bidder then .ok (.inl .payloadNamesAnotherBidder)
      else do
        let commitment ← bidCommitment env p
        if commitment ≠ b.commitment then return .inl .payloadDoesNotMatchCommitment
        return .inr p

def bareEntry (b : CommittedBidRef) (d : UnmatchedReason ⊕ BidPayload) : RevealEntry :=
  let p := d.elim (fun _ => VOID) id
  { bidId := b.bidId, quantity := p.quantity, tick := p.maxPriceTick, salt := p.salt, bidVersion := p.bidVersion
    proof := [] }

def entryLeaf (e : RevealEntry) : Nat := revealLeaf env e.bidId e.quantity e.tick e.salt

def planReveal (chainId auction : Nat) (bids : List CommittedBidRef) (slots : List OpenedSlot) :
    Except RangeError RevealPlan := do
  let bids := byId bids
  requireContiguous 0 bids
  require (bids ≠ []) .nothingCommitted
  let decisions ← bids.mapM (decide_ decodeUint16 env chainId auction slots)
  let decided := bids.zip decisions
  let bare := decided.map fun x => bareEntry x.1 x.2
  let tree ← merkleTree env (bare.map (entryLeaf env))
  return {
    entries := (bare.zip tree.proofs).map fun x => { x.1 with proof := x.2 }
    root := tree.root
    bidCount := bids.length
    matched := decided.filterMap fun x => x.2.elim (fun _ => none) (fun _ => some x.1.bidId)
    unmatched := decided.filterMap fun x => x.2.elim (fun reason => some (x.1.bidId, reason)) (fun _ => none) }

end Peal.Auction.Settler
