import Peal.Library.JsStrings
import Peal.Links.HexText
import Peal.Links.PaymentRequests
import Peal.Links.WalletCalls

namespace Peal.Links.Account
open Peal.Fallible Peal.Runs
open Peal.JsStrings (toBigInt)
open Peal.Links.PaymentRequests (Table verifyManifest)

/-! # Paying from an account

The payer's account on one device: its wallet and journal, the node's request table and backups, and the ledger. -/

/-- What a call of the account is refused with. -/
inductive PayError where
  | thrown (message : Text)
  | api (problem : Problem)
  | prover (error : Error)
  deriving DecidableEq, Repr

def thrown (message : String) : PayError := .thrown message.toList

/-! ### The wallet's confirmation of a payment -/

structure PaymentIntent where
  amount : Text
  recipientProfileHash : Text
  requestId : Text
  namespaceHex : Text
  accountStateVersion : Int
  nonce : Text
  expiry : Int
  deriving DecidableEq, Repr

structure PaymentApproval where
  intent : PaymentIntent
  signature : Text
  deriving DecidableEq, Repr

/-- The typed data a wallet signs for an intent: the chain of its domain, and its message. -/
structure IntentMessage where
  chainId : Nat
  amount : Int
  recipientProfileHash : Text
  requestId : Text
  namespaceHex : Text
  accountStateVersion : Int
  nonce : Text
  expiry : Int
  deriving DecidableEq, Repr

/-- The library that checks signatures: the address recovered, and the contract wallets' own check. -/
structure Viem where
  recoverTypedDataAddress : IntentMessage → Text → Option Text
  publicClient : Option (Text → IntentMessage → Text → Option Bool)

def h32 (s : Text) : Except PayError Text := do
  let clean := if ['0', 'x'].isPrefixOf s then s.drop 2 else s
  require (clean.length = 64 ∧ clean.all (fun ch => (toDigit 16 ch).isSome) = true) (thrown "expected 32 hex bytes")
  return '0' :: 'x' :: toLowercase clean

def bigInt (s : Text) : Except PayError Int := expect (toBigInt s) (thrown "SyntaxError: Cannot convert to a BigInt")

def paymentIntentTypedData (i : PaymentIntent) (chainId : Nat) : Except PayError IntentMessage := do
  let amount ← bigInt i.amount
  let recipientProfileHash ← h32 i.recipientProfileHash
  let namespaceHex ← h32 i.namespaceHex
  let nonce ← h32 i.nonce
  return ⟨chainId, amount, recipientProfileHash, i.requestId, namespaceHex, i.accountStateVersion, nonce, i.expiry⟩

def verifyPaymentIntent (v : Viem) (i : PaymentIntent) (chainId : Nat) (signature address : Text) (now : Nat) :
    Except PayError Bool :=
  if i.expiry * 1000 < now then .ok false
  else do
    let typed ← paymentIntentTypedData i chainId
    let own := (v.recoverTypedDataAddress typed signature).any fun a => toLowercase a = toLowercase address
    let contract := v.publicClient.any fun verify => (verify address typed signature).getD false
    return own || contract

/-! ### Payment targets -/

/-- A request with the texts of its manifest's JSON that the client reads itself. -/
structure PaymentRequest where
  manifest : RequestManifest
  namespaceHex : Text
  receiverAccount : Text
  receiverEncKey : Text
  amount : Text
  status : Text
  deriving DecidableEq, Repr

/-- The fields of a resolved profile that a payment reads. -/
structure ProfileTarget where
  namespaceHex : Text
  account : Text
  encKey : Text
  wallet : Text
  profileHash : Text
  amount : Text
  reference : Option Text
  deriving DecidableEq, Repr

inductive PaymentTarget where
  | request (r : PaymentRequest)
  | profile (p : ProfileTarget)
  deriving DecidableEq, Repr

structure Details where
  amount : Text
  receiverAccount : Text
  receiverEncKey : Text
  reference : Option Text
  requestId : Text
  profileHash : Text
  deriving DecidableEq, Repr

def allDigits (s : Text) : Bool := !s.isEmpty && s.all Char.isDigit

/-- The JSON's texts spell the manifest. -/
def Spelled (r : PaymentRequest) : Prop :=
  hexDecode r.namespaceHex = some (Wire.array32 r.manifest.namespaceId) ∧
    frFromHex r.receiverAccount = some r.manifest.receiverAccount ∧
    hexDecode r.receiverEncKey = some (Wire.array32 r.manifest.receiverEncKey) ∧
    (allDigits r.amount = true ∧ r.amount.length ≤ 20) ∧ parseU64 10 r.amount = some r.manifest.amount

instance (r : PaymentRequest) : Decidable (Spelled r) := inferInstanceAs (Decidable (_ ∧ _))

section Targets

variable (c : Crypto)

def verifyRequest (r : PaymentRequest) : Except PayError Unit := do
  require (Spelled r) (.prover (.wire "malformed manifest"))
  (verifyManifest c r.manifest).mapError .prover

def targetDetails (namespaceHex : Text) (now : Nat) : PaymentTarget → Except PayError Details
  | .request r => do
    require (r.namespaceHex = namespaceHex) (thrown "request is for another asset domain")
    verifyRequest c r
    require (r.status = "active".toList) (.thrown ("request is ".toList ++ r.status))
    require (∀ e ∈ r.manifest.expiresAt, ¬e * 1000 < now) (thrown "request has expired")
    return {
      amount := r.amount
      receiverAccount := r.receiverAccount
      receiverEncKey := r.receiverEncKey
      reference := some r.manifest.requestId
      requestId := r.manifest.requestId
      profileHash := List.replicate 64 '0' }
  | .profile p => do
    require (toLowercase p.namespaceHex = toLowercase namespaceHex) (thrown "profile is for another ledger domain")
    require (allDigits p.amount = true ∧ toBigInt p.amount ≠ some 0) (thrown "amount must be a positive integer")
    return {
      amount := p.amount
      receiverAccount := p.account
      receiverEncKey := p.encKey
      reference := p.reference
      requestId := []
      profileHash := p.profileHash }

end Targets

/-! ### The payment up to its send -/

/-- The profile a device holds for its account. -/
structure BoundProfile where
  wallet : Text
  chainId : Nat
  deriving DecidableEq, Repr

/-- The clocks of a call, the ledger's root and the randomness it draws. -/
structure Moment where
  read : Nat
  verified : Nat
  node : Nat
  prepared : Nat
  root : Fr
  rNew : Fr
  rReceipt : Fr

/-- A send a payment has prepared. -/
structure Sent where
  details : Details
  intentId : Text
  approval : Option PaymentApproval
  opening : ReceiptOpening
  comNew : Fr
  deriving DecidableEq, Repr

def parseAmount (s : Text) : Except PayError Nat := do
  require (allDigits s = true) (thrown "amount must be a decimal integer string of base units")
  expect (parseU64 10 s) (thrown "amount exceeds 2^64")

def checkApproval (v : Viem) (namespaceHex : Text) (profile : Option BoundProfile) (d : Details) (now : Nat)
    (approval : PaymentApproval) : Except PayError Unit := do
  let bound ← expect (profile.filter fun p => p.wallet ≠ []) (thrown "no wallet is bound to this account")
  let i := approval.intent
  require (i.amount = d.amount ∧ i.requestId = d.requestId ∧ i.recipientProfileHash = d.profileHash ∧
    i.namespaceHex = namespaceHex) (thrown "the wallet approved a different payment")
  let verified ← verifyPaymentIntent v i bound.chainId approval.signature bound.wallet now
  require (verified = true) (thrown "the wallet approval does not verify")

/-- A request is reserved with the node, a plain address has nothing to reserve. -/
def reserve (requests : Table) (requestId intentId : Text) (now : Nat) : Except PayError Table :=
  if requestId = [] then .ok requests
  else (PaymentRequests.reserveRequest requests requestId intentId now).mapError .api |>.map Prod.snd

variable (c : Crypto) (prover : Prover) (v : Viem)

/-- `prover.send`, up to the proof. -/
def send (w : Wallet) (inst : Instance) (d : Details) (m : Moment) : Except PayError (Wallet × ReceiptOpening × Fr) := do
  let amount ← parseAmount d.amount
  let recipient ← expect (frFromHex d.receiverAccount) (.prover (.wire "bad hex"))
  let (w', x) ← (w.prepareSend c prover inst amount recipient m.root d.reference m.prepared m.rNew m.rReceipt).mapError
    .prover
  return (w', ⟨amount, w.account, recipient, m.rReceipt⟩, prover.comNew x)

/-- The checks and the reservation of `payUnlocked`, and the send it prepares. -/
def payUnlocked (namespaceHex : Text) (profile : Option BoundProfile) (requests : Table) (w : Wallet) (inst : Instance)
    (target : PaymentTarget) (intentId : Text) (approval : Option PaymentApproval) (m : Moment) :
    Except PayError (Table × Wallet × Sent) := do
  let d ← targetDetails c namespaceHex m.read target
  require (w.pending = none) (thrown "an operation is pending; reconcile first")
  let amount ← bigInt d.amount
  require (¬(w.balance : Int) < amount) (thrown "insufficient balance")
  approval.forM (checkApproval v namespaceHex profile d m.verified)
  let requests' ← reserve requests d.requestId intentId m.node
  let (w', opening, comNew) ← send c prover w inst d m
  return (requests', w', ⟨d, intentId, approval, opening, comNew⟩)

/-! ### Runs of an account -/

/-- An account on a device, with the node and the ledger it works against. `sends` are the sends its payments
have prepared, `seen` the commitments it has had. -/
structure Payer where
  namespaceHex : Text
  profile : Option BoundProfile
  journal : Journal
  requests : Table
  backups : List Wallet
  sends : List Sent
  seen : List Fr

/-- What happens to the account; `journal` is every other step of its wallet and of the ledger, `note` a call
that only keeps books. -/
inductive Event where
  | pay (target : PaymentTarget) (intentId : Text) (approval : Option PaymentApproval) (m : Moment)
  | journal (action : Action)
  | note (call : WalletCall)
  | requests (call : PaymentRequests.Call)
  | bind (profile : Option BoundProfile)
  | backup
  | restore (w : Wallet)

def keepsBooks : WalletCall → Bool
  | .markRegistered | .addReceipt .. | .verifyReceipt .. | .prepareDeposit .. | .depositMinted .. => true
  | _ => false

/-- The commitment an operation draws. -/
def drawn (j : Journal) : Action → List Fr
  | .prepareSend .. | .prepareReceive .. => (j.wallet.pending.map PendingOp.comNew).toList
  | _ => []

def step (serves : Namespace → Bool) (s : Payer) : Event → Except PayError Payer
  | .pay target intentId approval m => do
    let (requests, w, x) ← payUnlocked c prover v s.namespaceHex s.profile s.requests s.journal.wallet
      s.journal.ledger.inst target intentId approval m
    return { s with
      journal := { s.journal with wallet := w, view := none }
      requests := requests
      sends := s.sends ++ [x]
      seen := s.seen ++ [x.comNew] }
  | .journal action => do
    let j ← (journalStep c prover s.journal action).mapError .prover
    return { s with journal := j, seen := s.seen ++ drawn j action }
  | .note call => do
    require (keepsBooks call = true) (thrown "not bookkeeping")
    let w ← (walletStep c prover s.journal.ledger.inst s.journal.wallet call).mapError .prover
    return { s with journal := { s.journal with wallet := w } }
  | .requests call => do
    let requests ← (PaymentRequests.step c serves s.requests call).mapError .api
    return { s with requests := requests }
  | .bind profile => .ok { s with profile := profile }
  | .backup => .ok { s with backups := s.backups ++ [s.journal.wallet] }
  | .restore w => do
    require (w ∈ s.backups) (thrown "no backup is stored for this wallet")
    return { s with journal := { s.journal with wallet := w, view := none } }

/-- The payment whose send sets a commitment. -/
def sendOf (sends : List Sent) (com : Fr) : Option Sent := sends.find? fun x => x.comNew = com

/-- The account's operations the ledger has accepted, in order: payments' sends, and others. -/
def Payer.operations (s : Payer) : List (Option Sent) := s.journal.answers.map fun r => sendOf s.sends r.1.comNew

/-- The payments' sends among them. -/
def Payer.accepted (s : Payer) : List Sent := s.operations.filterMap id

/-- An account with nothing pending, saved, before its first payment. -/
def Payer.start (namespaceHex : Text) (profile : Option BoundProfile) (requests : Table) (w : Wallet) (l : Ledger) :
    Payer := ⟨namespaceHex, profile, Journal.start w l, requests, [], [], [w.commitment c]⟩

end Peal.Links.Account
