import Peal.Library.Interleaving
import Peal.Gateway.Release
import Peal.Links.Watcher
import Peal.Links.Blocks
import Peal.Links.Wallet

namespace Peal.Links
open Peal.Fallible Peal.Runs Peal.Interleaving

/-! # Settlement: from a finalized burn to a certificate the gateway accepts -/

abbrev Signature := List Nat

structure WithdrawalClaim where
  namespaceId : Namespace
  account : Fr
  position : Nat
  opening : ReceiptOpening
  recipient : Text
  pubkey : Nat
  signature : Nat
  deriving DecidableEq, Repr

structure WithdrawalMessage where
  chainId : Nat
  gateway : Text
  token : Text
  recipient : Text
  amount : Text
  withdrawalId : Text
  epoch : Nat
  deriving DecidableEq, Repr

def ENVELOPE_WITHDRAWAL : Nat := 5

/-- The receiver of every withdrawal receipt, which no key derives. -/
def withdrawReceiver (c : Crypto) : Fr :=
  c.fromLeBytesModOrder (c.sha256 [.text "peal-links/v1/withdraw-receiver"])

def isEvmAddress (s : Text) : Bool :=
  Ledger.textLen s = 42 ∧ s.take 2 = "0x".toList ∧ (s.drop 2).all fun ch => (toDigit 16 ch).isSome

namespace WithdrawalClaim

variable (c : Crypto) (claim : WithdrawalClaim)

def signingBytes : List Nat :=
  [ENVELOPE_MAGIC, ENVELOPE_WITHDRAWAL, claim.namespaceId, claim.account, claim.position, claim.opening.amount,
    claim.opening.sender, claim.opening.receiver, claim.opening.randomness, Ledger.textLen claim.recipient] ++
    claim.recipient.map Char.toNat ++ [claim.pubkey]

def verify : Except Error Unit := do
  require (claim.opening.sender = claim.account ∧ claim.opening.receiver = withdrawReceiver c)
    (.wire "opening is not a withdrawal receipt of this account")
  require (isEvmAddress claim.recipient = true) (.wire "recipient is not an EVM address")
  require (c.keyValid claim.pubkey = true) .badSignature
  require (accountId c claim.namespaceId claim.pubkey = claim.account) .badSignature
  require (c.signed claim.pubkey claim.signingBytes claim.signature = true) .badSignature

end WithdrawalClaim

def wordAddress (addr : Text) : Except Text Nat := do
  let raw ← expect (hexDecode (trimHexPrefix addr)) "hex".toList
  require (raw.length = 20) "address must be 20 bytes".toList
  return fromBeBytes raw

def parseU128Digits (s : Text) : Option Nat :=
  s.foldlM (fun acc ch => do
    let d ← toDigit 10 ch
    if acc * 10 + d < 2 ^ 128 then some (acc * 10 + d) else none) 0

def parseU128 : Text → Option Nat
  | [] => none
  | '+' :: rest => if rest = [] then none else parseU128Digits rest
  | s => parseU128Digits s

/-- The hex text of a hash: 32 bytes, and more only for a value no hash has. -/
def wordHex (n : Nat) : Text := hexEncode (toLeBytes (max 32 ((n.size + 7) / 8)) n).reverse

/-- The id a burn is released under: the hash of its namespace and its position. -/
def withdrawalId (ch : Gateway.Chain) (namespaceId : Namespace) (position : Nat) : Nat :=
  ch.keccak256 [namespaceId, position]

namespace WithdrawalMessage

variable (ch : Gateway.Chain) (m : WithdrawalMessage)

/-- The values a message's texts spell. -/
def decode : Except Text Gateway.Withdrawal := do
  let amount ← expect (parseU128 m.amount) "amount".toList
  let wid ← expect (hexDecode (trimHexPrefix m.withdrawalId)) "hex".toList
  require (wid.length = 32) "withdrawal id must be 32 bytes".toList
  return {
    chainId := m.chainId
    gateway := ← wordAddress m.gateway
    token := ← wordAddress m.token
    recipient := ← wordAddress m.recipient
    amount := amount
    withdrawalId := fromBeBytes wid
    epoch := m.epoch }

def domainSeparator (chainId gateway : Nat) : Nat :=
  ch.keccak256 [ch.domainTypehash, ch.nameHash, ch.versionHash, chainId, gateway]

def digest : Except Text Nat := do
  let w ← m.decode
  let structHash := ch.keccak256 [ch.withdrawalTypehash, w.chainId, w.gateway, w.token, w.recipient, w.amount,
    w.withdrawalId, w.epoch]
  return ch.keccak256 [0x1901, domainSeparator ch w.chainId w.gateway, structHash]

end WithdrawalMessage

structure Signer where
  address : Nat
  key : Nat
  deriving DecidableEq, Repr

inductive Committee where
  | fixture (signers : List Signer) (threshold : Nat)
  | distributed (localSigner : Signer) (members : List Nat) (threshold : Nat)
  deriving DecidableEq, Repr

namespace Committee

def threshold : Committee → Nat
  | fixture _ threshold => threshold
  | distributed _ _ threshold => threshold

def localSigner : Committee → Option Signer
  | fixture _ _ => none
  | distributed localSigner _ _ => some localSigner

end Committee

/-- What a node is started with. -/
structure NodeConfig where
  namespaces : Namespace → Option NamespaceConfig
  committee : Option Committee
  consensus : Bool

inductive WithdrawalStatus where
  | certificateReady
  | confirmed
  deriving DecidableEq, Repr

structure SettledRow where
  namespaceId : Namespace
  position : Nat
  withdrawalId : Text
  account : Fr
  recipient : Text
  amount : Text
  claim : WithdrawalClaim
  message : WithdrawalMessage
  signatures : List Signature
  status : WithdrawalStatus
  txHash : Option Text
  deriving DecidableEq, Repr

structure Attestation where
  namespaceId : Namespace
  position : Nat
  epoch : Nat
  digest : Nat
  deriving DecidableEq, Repr

structure Certificate where
  message : WithdrawalMessage
  signatures : List Signature
  signers : List Nat
  threshold : Nat
  deriving DecidableEq, Repr

structure SignRequest where
  claim : WithdrawalClaim
  message : WithdrawalMessage
  deriving DecidableEq, Repr

structure SignResponse where
  signer : Option Nat
  signature : Option Signature
  error : Option Text
  deriving DecidableEq, Repr

abbrev NodeId := Nat

/-- One node: its configuration, how far its replicated ledger has come, and the settlement tables of its store. -/
structure Node where
  conf : NodeConfig
  applied : Nat
  withdrawals : List SettledRow
  attestations : List Attestation

/-- A signature a node made, with what it made it for. -/
structure Signed where
  node : NodeId
  signer : Nat
  claim : WithdrawalClaim
  message : WithdrawalMessage
  digest : Nat
  deriving DecidableEq, Repr

/-- A certificate a node answered a claim with. -/
structure Answer where
  node : NodeId
  claim : WithdrawalClaim
  certificate : Certificate
  deriving DecidableEq, Repr

/-- The nodes, the envelopes finalized for all of them, the chain with the gateway, and every signature and answer
the nodes have given. -/
structure Network where
  nodes : NodeId → Node
  finalized : List Tx
  chain : Gateway.World
  signed : List Signed
  answers : List Answer

/-- What a deployment fixes: the hash functions and signature schemes, and the ledgers every node starts from. -/
structure Deployment where
  crypto : Crypto
  chain : Gateway.Chain
  signPrehash : Nat → Nat → Except Text Signature
  recover : Nat → Signature → Except Text Nat
  genesis : Ledgers

/-- What a request waits for: the node's store and ledger, the endpoint that tells the gateway's epoch, and the
peers asked for signatures. -/
structure Outside where
  store : Except Text Unit
  ledger : Except Error Unit
  epoch : Except Text Nat
  answers : List (Option SignResponse)

namespace Network

variable (d : Deployment) (s : Network)

def setNode (n : NodeId) (node : Node) : Network := { s with nodes := Function.update s.nodes n node }

/-- The ledgers as a node holds them. -/
def ledgers (n : NodeId) : Ledgers := exec (txStep d.crypto) d.genesis (s.finalized.take (s.nodes n).applied)

end Network

variable (d : Deployment)

section Requests

variable (n : NodeId)

/-- The leaf at a position, read from the node's own ledger. -/
def pathLeaf (namespaceId : Namespace) (position : Nat) : Request Outside Network Problem Fr :=
  .step fun w s => (do
    w.ledger.mapError .ofError
    let l ← (expect (s.ledgers d n namespaceId) .wrongNamespace).mapError Problem.ofError
    (expect l.tree.leaves[position]?
      (.wallet s!"no receipt at position {position} in a log of {l.tree.size}")).mapError Problem.ofError, s)

def accountOf (namespaceId : Namespace) (account : Fr) : Request Outside Network Problem (Option AccountView) :=
  .step fun w s => (do
    w.ledger.mapError .ofError
    let l ← (expect (s.ledgers d n namespaceId) .wrongNamespace).mapError Problem.ofError
    return l.account account, s)

/-- What every signer verifies before attesting. -/
def SignerPolicy.check (nsId : Namespace) (claim : WithdrawalClaim) : Request Outside Network Problem Unit := do
  Request.check ((claim.verify d.crypto).mapError fun e => ⟨"unauthorized", (Problem.ofError e).detail⟩)
  Request.check (require (claim.namespaceId = nsId) ⟨"wrong_namespace", "claim names another namespace".toList⟩)
  let leaf ← pathLeaf d n nsId claim.position
  Request.check (require (leaf = receiptCommitment d.crypto claim.opening)
    ⟨"bad_opening", "the opening does not match the receipt at that position".toList⟩)
  let account ← accountOf d n nsId claim.account
  Request.check (require (account ≠ none) ⟨"unknown_account", "claiming account is not registered".toList⟩)
  Request.check (require (claim.opening.amount ≠ 0) ⟨"malformed", "zero amount".toList⟩)

def gatewayEpoch : Request Outside Network Text Nat := .step fun w s => (w.epoch, s)

def storeError (e : Text) : Text := "store: ".toList ++ e

/-- Record what a signer on this node attests for a position under an epoch, or refuse another digest for it. -/
def attest (namespaceId : Namespace) (position epoch digest : Nat) : Request Outside Network Text Unit :=
  .step fun w s =>
    match w.store with
    | .error e => (.error (storeError e), s)
    | .ok () =>
      match (s.nodes n).attestations.find? fun a =>
          a.namespaceId = namespaceId ∧ a.position = position ∧ a.epoch = epoch with
      | some prior =>
        if prior.digest ≠ digest then
          (.error "already attested a different withdrawal message for this position and epoch".toList, s)
        else (.ok (), s)
      | none => (.ok (), s.setNode n { s.nodes n with
          attestations := (s.nodes n).attestations ++ [⟨namespaceId, position, epoch, digest⟩] })

def signDigest (signer : Signer) (claim : WithdrawalClaim) (message : WithdrawalMessage) (digest : Nat) :
    Request Outside Network Text Signature :=
  .step fun _ s =>
    match d.signPrehash signer.key digest with
    | .error e => (.error e, s)
    | .ok signature => (.ok signature, { s with signed := s.signed ++ [⟨n, signer.address, claim, message, digest⟩] })

/-- A peer's answer to a request for its signature. -/
def collect (digest : Nat) (members : List Nat) (collected : List (Nat × Signature)) (answer : Option SignResponse) :
    List (Nat × Signature) :=
  match answer.bind SignResponse.signature with
  | none => collected
  | some signature =>
    match d.recover digest signature with
    | .error _ => collected
    | .ok addr =>
      if addr ∈ members ∧ addr ∉ collected.map Prod.fst then collected ++ [(addr, signature)] else collected

/-- One of the rounds in which peers are asked, as long as signatures are missing. -/
def gatherRound (digest : Nat) (members : List Nat) (threshold : Nat) (collected : List (Nat × Signature)) :
    Request Outside Network Problem (List (Nat × Signature)) :=
  if threshold ≤ collected.length then return collected
  else .step fun w s => (.ok (w.answers.foldl (collect d digest members) collected), s)

/-- The failure of a request in other words. -/
def reworded {ε ε' α : Type} (x : Request Outside Network ε α) (f : ε → ε') : Request Outside Network ε' α :=
  ExceptT.mk (Proc.bind x.run fun r => .ret (r.mapError f))

/-- Gather at least the threshold of signatures, sorted by their signers' addresses. -/
def Committee.certify (conf : NodeConfig) (committee : Committee) (claim : WithdrawalClaim)
    (message : WithdrawalMessage) (digest : Nat) : Request Outside Network Problem (List (Nat × Signature)) := do
  reworded (attest n claim.namespaceId claim.position message.epoch digest) (⟨"already_attested", ·⟩)
  match committee with
  | fixture signers _ => signers.mapM fun signer => do
    let signature ← reworded (signDigest d n signer claim message digest) .internal
    return (signer.address, signature)
  | distributed localSigner members threshold => do
    Request.check (require (conf.consensus = true)
      ⟨"no_consensus", "the distributed committee needs the validator network".toList⟩)
    let signature ← reworded (signDigest d n localSigner claim message digest) .internal
    let collected ← gatherRound d digest members threshold [(localSigner.address, signature)]
    let collected ← gatherRound d digest members threshold collected
    Request.check (require (threshold ≤ collected.length)
      ⟨"not_enough_signers", Nat.toDigits 10 collected.length ++ " of ".toList ++ Nat.toDigits 10 threshold ++
        " committee signatures gathered".toList⟩)
    return collected.mergeSort fun a b => a.1 ≤ b.1

/-- The message for a claim on the gateway of its namespace. -/
def messageFor (ns : NamespaceConfig) (claim : WithdrawalClaim) (epoch : Nat) : WithdrawalMessage where
  chainId := ns.chainId
  gateway := toLowercase ns.gateway
  token := toLowercase ns.tokenAddress
  recipient := toLowercase claim.recipient
  amount := Nat.toDigits 10 claim.opening.amount
  withdrawalId := wordHex (withdrawalId d.chain claim.namespaceId claim.position)
  epoch := epoch

def storedWithdrawal (claim : WithdrawalClaim) : Request Outside Network Problem (Option SettledRow) :=
  .step fun w s =>
    match w.store with
    | .error e => (.error (.internal e), s)
    | .ok () => (.ok ((s.nodes n).withdrawals.find? fun r =>
        r.namespaceId = claim.namespaceId ∧ r.position = claim.position), s)

/-- The statement that replaces the certificate of a settled position. -/
def recertified (claim : WithdrawalClaim) (message : WithdrawalMessage) (signatures : List Signature) (w : Outside)
    (s : Network) : Except Problem Unit × Network :=
  match w.store with
  | .error e => (.error (.internal e), s)
  | .ok () => (.ok (), s.setNode n { s.nodes n with
      withdrawals := (s.nodes n).withdrawals.map fun r =>
        if r.namespaceId = claim.namespaceId ∧ r.position = claim.position then
          { r with message := message, signatures := signatures, status := .certificateReady }
        else r })

def replaceSettled (claim : WithdrawalClaim) (message : WithdrawalMessage) (signatures : List Signature) :
    Request Outside Network Problem Unit :=
  .step (recertified n claim message signatures)

/-- Settle a position, once: the keys of the table refuse a second row. -/
def insertSettled (claim : WithdrawalClaim) (message : WithdrawalMessage) (signatures : List Signature) :
    Request Outside Network Problem Unit :=
  .step fun w s =>
    match w.store with
    | .error e => (.error (.internal e), s)
    | .ok () =>
      if (s.nodes n).withdrawals.any (fun r => r.namespaceId = claim.namespaceId ∧
          (r.position = claim.position ∨ r.withdrawalId = message.withdrawalId)) then
        (.error ⟨"already_consumed", "this withdrawal was already settled".toList⟩, s)
      else (.ok (), s.setNode n { s.nodes n with
        withdrawals := (s.nodes n).withdrawals ++ [⟨claim.namespaceId, claim.position, message.withdrawalId,
          claim.account, message.recipient, message.amount, claim, message, signatures, .certificateReady, none⟩] })

/-- Check a claim, certify it under the epoch and store the certificate, over a stored one of another epoch. -/
def certifyClaim (conf : NodeConfig) (ns : NamespaceConfig) (committee : Committee) (claim : WithdrawalClaim)
    (epoch : Nat) (recertify : Bool) : Request Outside Network Problem Certificate := do
  SignerPolicy.check d n claim.namespaceId claim
  let message := messageFor d ns claim epoch
  let digest ← Request.check ((message.digest d.chain).mapError .internal)
  let signed ← committee.certify d n conf claim message digest
  let signatures := signed.map Prod.snd
  if recertify then replaceSettled n claim message signatures
  else insertSettled n claim message signatures
  return ⟨message, signatures, signed.map Prod.fst, committee.threshold⟩

/-- Process a withdrawal claim. -/
def settle (conf : NodeConfig) (claim : WithdrawalClaim) : Request Outside Network Problem Certificate := do
  let ns ← Request.check (expect (conf.namespaces claim.namespaceId)
    ⟨"unknown_namespace", "no such namespace".toList⟩)
  Request.check (require (ns.enabled = true ∧ ns.gateway ≠ [])
    ⟨"no_gateway", "withdrawals are not available on this namespace".toList⟩)
  let committee ← Request.check (expect conf.committee
    ⟨"no_committee", "no settlement committee configured".toList⟩)
  let epoch ← reworded gatewayEpoch (⟨"chain_unreachable", ·⟩)
  match ← storedWithdrawal n claim with
  | none => certifyClaim d n conf ns committee claim epoch false
  | some row =>
    -- A certificate of an epoch that is over is dead on chain.
    if row.message.epoch = epoch then do
      let digest ← Request.check ((row.message.digest d.chain).mapError .internal)
      return ⟨row.message, row.signatures, row.signatures.filterMap fun signature =>
        (d.recover digest signature).toOption, committee.threshold⟩
    else certifyClaim d n conf ns committee claim epoch true

/-- The outcome of a request, which goes on either way. -/
def attempt {ε ε' α : Type} (x : Request Outside Network ε α) : Request Outside Network ε' (Except ε α) :=
  ExceptT.mk (Proc.bind x.run fun r => .ret (.ok r))

/-- Whether a refusal may be due to a ledger that is a block behind. -/
def retriable (p : Problem) : Bool := p.code = "unknown_account" ∨ p.code = "wallet"

/-- The policy's check, made again while the ledger may be a block behind. -/
def checkPatiently (claim : WithdrawalClaim) : Nat → Request Outside Network Text Unit
  | 0 => reworded (SignerPolicy.check d n claim.namespaceId claim) Problem.detail
  | attempts + 1 => do
    match ← attempt (SignerPolicy.check d n claim.namespaceId claim) with
    | .ok () => return ()
    | .error p => if retriable p = true then checkPatiently claim attempts else throw p.detail

/-- What a validator makes of a peer's request, once it holds a key. -/
def coSign (conf : NodeConfig) (localSigner : Signer) (req : SignRequest) : Request Outside Network Text Signature := do
  let ns ← Request.check (expect (conf.namespaces req.claim.namespaceId) "unknown namespace".toList)
  Request.check (require (ns.enabled = true ∧ ns.gateway ≠ []) "namespace has no gateway here".toList)
  checkPatiently d n req.claim 12
  let m := req.message
  let expectedId := wordHex (withdrawalId d.chain req.claim.namespaceId req.claim.position)
  Request.check (require (m.chainId = ns.chainId ∧ m.gateway = toLowercase ns.gateway ∧
    m.token = toLowercase ns.tokenAddress ∧ m.recipient = toLowercase req.claim.recipient ∧
    m.amount = Nat.toDigits 10 req.claim.opening.amount ∧ m.withdrawalId = expectedId)
    "message does not match the claim and this namespace".toList)
  let epoch ← reworded gatewayEpoch fun e => "chain unreachable: ".toList ++ e
  Request.check (require (epoch = m.epoch)
    ("gateway epoch is ".toList ++ Nat.toDigits 10 epoch ++ ", message says ".toList ++ Nat.toDigits 10 m.epoch))
  let digest ← Request.check (m.digest d.chain)
  attest n req.claim.namespaceId req.claim.position m.epoch digest
  signDigest d n localSigner req.claim m digest

/-- A peer asks this validator to co-sign a withdrawal. -/
def signForPeer (conf : NodeConfig) (req : SignRequest) : Proc Outside Network SignResponse :=
  match conf.committee.bind Committee.localSigner with
  | none => .ret ⟨none, none, some "this validator holds no settlement key".toList⟩
  | some localSigner => Proc.bind (coSign d n conf localSigner req).run fun r =>
    match r with
    | .ok signature => .ret ⟨some localSigner.address, some signature, none⟩
    | .error e => .ret ⟨some localSigner.address, none, some e⟩

end Requests

/-! ## Runs of any number of nodes -/

inductive SettlementRequest where
  | settle (claim : WithdrawalClaim)
  | signForPeer (req : SignRequest)

inductive Change where
  | finalize (tx : Tx)
  | apply (n : NodeId)
  | call (e : Nat × Gateway.Call)
  | confirm (n : NodeId) (namespaceId : Namespace) (withdrawalId txHash : Text)

/-- What a crashed node comes back with: a configuration, and as much of the finalized envelopes as it had stored. -/
structure Reopened where
  conf : NodeConfig
  applied : Nat

/-- The watcher's statement for a withdrawal it saw on chain. -/
def Node.confirmWithdrawal (node : Node) (namespaceId : Namespace) (withdrawalId txHash : Text) : Node :=
  { node with withdrawals := node.withdrawals.map fun r =>
      if r.namespaceId = namespaceId ∧ r.withdrawalId = withdrawalId ∧ r.status ≠ .confirmed then
        { r with status := .confirmed, txHash := some txHash }
      else r }

namespace Network

/-- A claim is answered with its certificate once it is settled. -/
def answer (n : NodeId) (claim : WithdrawalClaim) (certificate : Certificate) : Request Outside Network Problem Unit :=
  .step fun _ s => (.ok (), { s with answers := s.answers ++ [⟨n, claim, certificate⟩] })

def serve (s : Network) (n : NodeId) : SettlementRequest → Proc Outside Network Unit
  | .settle claim => Request.served (do
    let certificate ← Links.settle d n (s.nodes n).conf claim
    answer n claim certificate)
  | .signForPeer req => Proc.bind (Links.signForPeer d n (s.nodes n).conf req) fun _ => .ret ()

def reopen (n : NodeId) (r : Reopened) (s : Network) : Network :=
  s.setNode n { s.nodes n with conf := r.conf, applied := min r.applied (s.nodes n).applied }

def change (s : Network) : Change → Except Unit Network
  | .finalize tx => .ok { s with finalized := s.finalized ++ [tx] }
  | .apply n =>
    if (s.nodes n).applied < s.finalized.length then
      .ok (s.setNode n { s.nodes n with applied := (s.nodes n).applied + 1 })
    else .error ()
  | .call e => ((s.chain.step d.chain e).mapError fun _ => ()).map fun chain => { s with chain := chain }
  | .confirm n namespaceId withdrawalId txHash =>
    .ok (s.setNode n ((s.nodes n).confirmWithdrawal namespaceId withdrawalId txHash))

def machine : Machine NodeId Outside Reopened Network SettlementRequest Change where
  serve := serve d
  halt := reopen
  outside := change d

end Network

end Peal.Links
