import Peal.Auction.ERC20
import Peal.Library.Runs

namespace Peal.Gateway
open Peal.Fallible Peal.Auction

/-! # The bridge gateway and the tokens it holds -/

inductive Revert where
  | tokenNotAllowed (token : Nat)
  | zeroAmount
  | inexactTransfer (expected received : Nat)
  | wrongChain (expected got : Nat)
  | wrongGateway (expected got : Nat)
  | staleEpoch (current got : Nat)
  | alreadyConsumed (withdrawalId : Nat)
  | aboveCap (cap amount : Nat)
  | notEnoughSignatures (needed valid : Nat)
  | signersNotSorted
  | notASigner (signer : Nat)
  | badSignerSet
  | zeroRecipient
  | ownableUnauthorizedAccount (account : Nat)
  | ownableInvalidOwner (owner : Nat)
  | enforcedPause
  | expectedPause
  | ecdsaInvalidSignature
  | transferRefused
  | panic (code : Nat)
  deriving DecidableEq, Repr

structure Withdrawal where
  chainId : Nat
  gateway : Nat
  token : Nat
  recipient : Nat
  amount : Nat
  withdrawalId : Nat
  epoch : Nat
  deriving DecidableEq, Repr

structure TokenConfig where
  allowed : Bool
  maxWithdrawal : Nat
  deriving DecidableEq, Repr

structure Deposit where
  id : Nat
  token : Nat
  sender : Nat
  amount : Nat
  receipt : Nat
  deriving DecidableEq, Repr

structure Withdrawn where
  withdrawalId : Nat
  token : Nat
  recipient : Nat
  amount : Nat
  epoch : Nat
  deriving DecidableEq, Repr

/-- What the chain fixes for one gateway: its hash function on words, signature recovery, the chain id,
the address of the contract, and the hashes of the EIP-712 type strings. -/
structure Chain where
  keccak256 : List Nat → Nat
  recover : Nat → List Nat → Option Nat
  chainid : Nat
  self : Nat
  withdrawalTypehash : Nat
  domainTypehash : Nat
  nameHash : Nat
  versionHash : Nat

/-- The storage, with the logs of the deposit and withdrawal events. -/
structure PealLinksGateway where
  owner : Nat
  pendingOwner : Nat
  paused : Bool
  tokens : Nat → TokenConfig
  epoch : Nat
  threshold : Nat
  isSigner : Nat → Nat → Bool
  signers : List Nat
  consumed : Nat → Bool
  depositCount : Nat
  deposited : List Deposit
  withdrawn : List Withdrawn

namespace PealLinksGateway

variable (ch : Chain) (g : PealLinksGateway)

def addSigner (epoch : Nat) (g : PealLinksGateway) (s : Nat) : Except Revert PealLinksGateway := do
  require (s ≠ 0 ∧ g.isSigner epoch s = false) .badSignerSet
  return { g with
    isSigner := Function.update g.isSigner epoch (Function.update (g.isSigner epoch) s true)
    signers := g.signers ++ [s] }

def rotate (signers : List Nat) (threshold : Nat) : Except Revert PealLinksGateway := do
  require (signers ≠ [] ∧ threshold ≠ 0 ∧ threshold ≤ signers.length) .badSignerSet
  let epoch ← checked (.panic 0x11) 64 (g.epoch + 1)
  let rotated ← signers.foldlM (addSigner epoch) { g with epoch := epoch, signers := [] }
  return { rotated with threshold := threshold }

/-- The contract's storage before its constructor runs. -/
def unset (owner : Nat) : PealLinksGateway where
  owner := owner
  pendingOwner := 0
  paused := false
  tokens _ := ⟨false, 0⟩
  epoch := 0
  threshold := 0
  isSigner _ _ := false
  signers := []
  consumed _ := false
  depositCount := 0
  deposited := []
  withdrawn := []

def construct (owner : Nat) (signers : List Nat) (threshold : Nat) : Except Revert PealLinksGateway := do
  require (owner ≠ 0) (.ownableInvalidOwner 0)
  (unset owner).rotate signers threshold

def onlyOwner (caller : Nat) : Except Revert Unit :=
  require (caller = g.owner) (.ownableUnauthorizedAccount caller)

def whenNotPaused : Except Revert Unit := require (g.paused = false) .enforcedPause

/-- A token call of the contract, whose failure takes the whole transaction with it. -/
def safe (x : Except Auction.Revert ERC20) : Except Revert ERC20 :=
  x.mapError fun _ => .transferRefused

def deposit (erc20 : ERC20) (caller token amount receipt : Nat) : Except Revert (PealLinksGateway × ERC20) := do
  g.whenNotPaused
  require ((g.tokens token).allowed = true) (.tokenNotAllowed token)
  require (amount ≠ 0) .zeroAmount
  let before := erc20.balanceOf ch.self
  let after ← safe (erc20.transferFrom ch.self caller ch.self amount)
  let received ← checkedSub (.panic 0x11) (after.balanceOf ch.self) before
  require (received = amount) (.inexactTransfer amount received)
  let id ← checked (.panic 0x11) 256 (g.depositCount + 1)
  return ({ g with
    depositCount := id
    deposited := g.deposited ++ [⟨id, token, caller, amount, receipt⟩] }, after)

def domainSeparator : Nat :=
  ch.keccak256 [ch.domainTypehash, ch.nameHash, ch.versionHash, ch.chainid, ch.self]

def withdrawalDigest (w : Withdrawal) : Nat :=
  ch.keccak256 [0x1901, domainSeparator ch,
    ch.keccak256 [ch.withdrawalTypehash, w.chainId, w.gateway, w.token, w.recipient, w.amount, w.withdrawalId,
      w.epoch]]

/-- One turn of the signature loop, over the last signer seen and the number of valid signatures. -/
def checkSignature (digest : Nat) (seen : Nat × Nat) (signature : List Nat) : Except Revert (Nat × Nat) := do
  let signer ← expect (ch.recover digest signature) .ecdsaInvalidSignature
  require (seen.1 < signer) .signersNotSorted
  require (g.isSigner g.epoch signer = true) (.notASigner signer)
  return (signer, seen.2 + 1)

def withdraw (erc20 : ERC20) (w : Withdrawal) (signatures : List (List Nat)) :
    Except Revert (PealLinksGateway × ERC20) := do
  g.whenNotPaused
  require (w.chainId = ch.chainid) (.wrongChain ch.chainid w.chainId)
  require (w.gateway = ch.self) (.wrongGateway ch.self w.gateway)
  require (w.epoch = g.epoch) (.staleEpoch g.epoch w.epoch)
  require (w.recipient ≠ 0) .zeroRecipient
  require (w.amount ≠ 0) .zeroAmount
  let cfg := g.tokens w.token
  require (cfg.allowed = true) (.tokenNotAllowed w.token)
  require (w.amount ≤ cfg.maxWithdrawal) (.aboveCap cfg.maxWithdrawal w.amount)
  require (g.consumed w.withdrawalId = false) (.alreadyConsumed w.withdrawalId)
  let seen ← signatures.foldlM (g.checkSignature ch (withdrawalDigest ch w)) (0, 0)
  require (g.threshold ≤ seen.2) (.notEnoughSignatures g.threshold seen.2)
  let after ← safe (erc20.transfer ch.self w.recipient w.amount)
  return ({ g with
    consumed := Function.update g.consumed w.withdrawalId true
    withdrawn := g.withdrawn ++ [⟨w.withdrawalId, w.token, w.recipient, w.amount, w.epoch⟩] }, after)

def rotateSigners (caller : Nat) (signers : List Nat) (threshold : Nat) : Except Revert PealLinksGateway := do
  g.onlyOwner caller
  g.rotate signers threshold

def configureToken (caller token : Nat) (allowed : Bool) (maxWithdrawal : Nat) :
    Except Revert PealLinksGateway := do
  g.onlyOwner caller
  return { g with tokens := Function.update g.tokens token ⟨allowed, maxWithdrawal⟩ }

def pause (caller : Nat) : Except Revert PealLinksGateway := do
  g.onlyOwner caller
  g.whenNotPaused
  return { g with paused := true }

def unpause (caller : Nat) : Except Revert PealLinksGateway := do
  g.onlyOwner caller
  require (g.paused = true) .expectedPause
  return { g with paused := false }

def transferOwnership (caller newOwner : Nat) : Except Revert PealLinksGateway := do
  g.onlyOwner caller
  return { g with pendingOwner := newOwner }

def acceptOwnership (caller : Nat) : Except Revert PealLinksGateway := do
  require (caller = g.pendingOwner) (.ownableUnauthorizedAccount caller)
  return { g with owner := caller, pendingOwner := 0 }

def renounceOwnership (caller : Nat) : Except Revert PealLinksGateway := do
  g.onlyOwner caller
  return { g with owner := 0, pendingOwner := 0 }

end PealLinksGateway

/-! ## Runs of any callers -/

/-- The gateway with the tokens, what reached the gateway outside its own calls, and the digests each key
has signed. -/
structure World where
  gateway : PealLinksGateway
  erc20 : Nat → ERC20
  direct : Nat → Nat
  signed : List (Nat × Nat)

inductive Call where
  | deposit (token amount receipt : Nat)
  | withdraw (w : Withdrawal) (signatures : List (List Nat))
  | rotateSigners (signers : List Nat) (threshold : Nat)
  | configureToken (token : Nat) (allowed : Bool) (maxWithdrawal : Nat)
  | pause
  | unpause
  | transferOwnership (newOwner : Nat)
  | acceptOwnership
  | renounceOwnership
  | sign (digest : Nat)
  | transfer (token recipient amount : Nat)
  | transferFrom (token sender recipient amount : Nat)
  | approve (token spender amount : Nat)
  deriving DecidableEq, Repr

namespace World

variable (ch : Chain) (w : World)

def setToken (token : Nat) (r : PealLinksGateway × ERC20) : World :=
  { w with gateway := r.1, erc20 := Function.update w.erc20 token r.2 }

/-- A token call that is not the gateway's. -/
def move (token recipient amount : Nat) (t : ERC20) : World :=
  { w with
    erc20 := Function.update w.erc20 token t
    direct := if recipient = ch.self then Function.update w.direct token (w.direct token + amount) else w.direct }

/-- The gateway makes no calls but those of `deposit` and `withdraw`. -/
def step (e : Nat × Call) : Except Revert World := do
  let caller := e.1
  require (caller ≠ ch.self ∧ caller ≠ 0) .transferRefused
  match e.2 with
  | .deposit token amount receipt =>
    let r ← w.gateway.deposit ch (w.erc20 token) caller token amount receipt
    return w.setToken token r
  | .withdraw wd signatures =>
    let r ← w.gateway.withdraw ch (w.erc20 wd.token) wd signatures
    return w.setToken wd.token r
  | .rotateSigners signers threshold =>
    let g ← w.gateway.rotateSigners caller signers threshold
    return { w with gateway := g }
  | .configureToken token allowed maxWithdrawal =>
    let g ← w.gateway.configureToken caller token allowed maxWithdrawal
    return { w with gateway := g }
  | .pause =>
    let g ← w.gateway.pause caller
    return { w with gateway := g }
  | .unpause =>
    let g ← w.gateway.unpause caller
    return { w with gateway := g }
  | .transferOwnership newOwner =>
    let g ← w.gateway.transferOwnership caller newOwner
    return { w with gateway := g }
  | .acceptOwnership =>
    let g ← w.gateway.acceptOwnership caller
    return { w with gateway := g }
  | .renounceOwnership =>
    let g ← w.gateway.renounceOwnership caller
    return { w with gateway := g }
  | .sign digest => return { w with signed := w.signed ++ [(caller, digest)] }
  | .transfer token recipient amount =>
    let t ← PealLinksGateway.safe ((w.erc20 token).transfer caller recipient amount)
    return w.move ch token recipient amount t
  | .transferFrom token sender recipient amount =>
    let t ← PealLinksGateway.safe ((w.erc20 token).transferFrom caller sender recipient amount)
    return w.move ch token recipient amount t
  | .approve token spender amount =>
    return { w with erc20 := Function.update w.erc20 token ((w.erc20 token).approve caller spender amount) }

/-- The gateway as deployed beside tokens issued earlier, which its address has not approved anyone to spend. -/
def deployed (issued : Nat → ERC20) (owner : Nat) (signers : List Nat) (threshold : Nat) :
    Except Revert World := do
  let g ← PealLinksGateway.construct owner signers threshold
  return {
    gateway := g
    erc20 := fun token => ⟨(issued token).balanceOf, Function.update (issued token).allowance ch.self fun _ => 0⟩
    direct := fun token => (issued token).balanceOf ch.self
    signed := [] }

end World

end Peal.Gateway
