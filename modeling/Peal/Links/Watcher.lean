import Peal.Library.Programs
import Peal.Links.Oracle

namespace Peal.Links
open Peal.Programs Peal.Programs.Prog

/-! # The deposit watcher of a namespace and the product store it writes -/

inductive DepositStatus where
  | credited
  | unregistered
  | wrongToken
  | badReceipt
  | wrongAmount
  deriving DecidableEq, Repr

structure ObservedDeposit where
  depositId : Text
  receipt : Text
  amount : Nat
  sender : Text
  token : Text
  block : Nat
  status : DepositStatus
  deriving DecidableEq, Repr

inductive IntentStatus where
  | pending
  | minted
  deriving DecidableEq, Repr

structure IntentRow where
  receipt : Text
  intent : DepositIntent
  status : IntentStatus
  depositId : Option Text
  position : Option Nat
  deriving DecidableEq, Repr

structure WithdrawalRow where
  withdrawalId : Text
  confirmed : Bool
  txHash : Option Text
  deriving DecidableEq, Repr

/-- One namespace's rows of the product store. -/
structure Product where
  cursor : Option (Nat × Text)
  observed : List ObservedDeposit
  intents : List IntentRow
  withdrawals : List WithdrawalRow
  deriving DecidableEq, Repr

namespace Product

def intentRow (s : Product) (receipt : Text) : Option IntentRow :=
  s.intents.find? fun row => row.receipt = receipt

/-- The intent registered for a receipt. -/
def intentOf (s : Product) (receipt : Text) : Option DepositIntent :=
  (s.intentRow receipt).map (·.intent)

/-- A deposit seen again keeps its row and takes the new status. -/
def observe (s : Product) (row : ObservedDeposit) : Product :=
  { s with observed :=
      if s.observed.any (fun r => r.depositId = row.depositId) then
        s.observed.map fun r => if r.depositId = row.depositId then { r with status := row.status } else r
      else s.observed ++ [row] }

def markMinted (s : Product) (receipt depositId : Text) (position : Nat) : Product :=
  { s with intents := s.intents.map fun row =>
      if row.receipt = receipt then
        { row with status := .minted, depositId := some depositId, position := some position }
      else row }

def insertIntent (s : Product) (row : IntentRow) : Product := { s with intents := s.intents ++ [row] }

def confirmWithdrawal (s : Product) (withdrawalId txHash : Text) : Product :=
  { s with withdrawals := s.withdrawals.map fun row =>
      if row.withdrawalId = withdrawalId ∧ row.confirmed = false then
        { row with confirmed := true, txHash := some txHash }
      else row }

def saveCursor (s : Product) (block : Nat) (hash : Text) : Product := { s with cursor := some (block, hash) }

end Product

structure Problem where
  code : String
  detail : Text
  deriving DecidableEq, Repr

def contains (s part : Text) : Bool := part <:+: s

namespace Problem

def internal (detail : Text) : Problem := ⟨"internal", detail⟩

def ofError : Error → Problem
  | .wire reason => ⟨"malformed", "wire format error: ".toList ++ reason.toList⟩
  | .nonCanonicalField => ⟨"malformed", "non-canonical field element".toList⟩
  | .invalidPoint => ⟨"malformed", "invalid group element (off curve or off subgroup)".toList⟩
  | .invalidProof => ⟨"invalid_proof", "proof does not verify".toList⟩
  | .unknownAccount => ⟨"unknown_account", "account is not registered".toList⟩
  | .accountExists => ⟨"account_exists", "account is already registered".toList⟩
  | .staleCommitment => ⟨"stale_commitment",
      "stale account commitment: the account moved since this proof was made".toList⟩
  | .rootNotRecent => ⟨"root_not_recent",
      "revealed receipt root is not within the recent-root window".toList⟩
  | .receiptLogFull => ⟨"log_full", "receipt log is full".toList⟩
  | .wrongNamespace => ⟨"wrong_namespace", "wrong namespace".toList⟩
  | .badSignature => ⟨"unauthorized", "bad signature".toList⟩
  | .wallet reason => ⟨"wallet", "wallet state error: ".toList ++ reason.toList⟩
  | .storage reason =>
    if contains reason.toList "already credited".toList then ⟨"duplicate_deposit", reason.toList⟩
    else internal reason.toList

end Problem

/-- The statements the store is asked to execute. -/
inductive Statement where
  | loadCursor
  | intentOf (depositId : Text)
  | intentStatus (depositId : Text)
  | markMinted (depositId : Text)
  | observe (depositId : Text)
  | confirmWithdrawal (withdrawalId : Text)
  | saveCursor
  | intentExists
  | insertIntent
  deriving DecidableEq, Repr

/-- What the chain's endpoint, the ledger and the store answer. Any of them may fail, and the process may
crash while it waits. -/
structure Answers where
  head : Outcome Text Nat
  blockHash : Nat → Outcome Text (Option Text)
  deposits : Nat → Nat → Outcome Text (List Log)
  withdrawals : Nat → Nat → Outcome Text (List Log)
  lastHash : Nat → Outcome Text (Option Text)
  mint : MintEnvelope → Outcome Error Nat
  store : Statement → Outcome Text Unit

structure WithdrawnEvent where
  withdrawalId : Text
  token : Text
  recipient : Text
  amount : Nat
  epoch : Nat
  blockNumber : Nat
  txHash : Text
  deriving DecidableEq, Repr

def decodeWithdrawn (log : Log) : Except String WithdrawnEvent :=
  match log.topics with
  | [_, withdrawalId, token, recipient] => do
    let data ← decodeHex log.data
    Fallible.require (data.length = 64) "rpc decode: deposit log data"
    return {
      withdrawalId := toLowercase (trimHexPrefix withdrawalId)
      token := ← topicToAddress token
      recipient := ← topicToAddress recipient
      amount := ← wordToU128 (data.take 32)
      epoch := (← wordToU128 (data.drop 32)) % 2 ^ 64
      blockNumber := ← hexToU64 log.blockNumber
      txHash := toLowercase log.transactionHash }
  | _ => .error "rpc decode: deposit log topics"

def DepositEvent.depositId (ev : DepositEvent) (chainId : Nat) : Text :=
  Nat.toDigits 10 chainId ++ ':' :: ev.txHash ++ ':' :: Nat.toDigits 10 ev.logIndex

variable (a : Answers) (ns : NamespaceConfig)

/-- Credit a registered intent as a mint. -/
def creditIntent (receipt : Fr) (depositId : Text) : Prog Product Problem Nat := do
  rescue (answer (a.store (.intentStatus depositId))) fun e => fail (.internal e)
  let s ← get
  match s.intentRow (frToHex receipt) with
  | none => fail ⟨"unknown_intent", "no registered intent for this receipt".toList⟩
  | some row =>
    if row.status = .pending then do
      let position ← rescue (answer (a.mint ⟨row.intent, depositId⟩)) fun e => fail (.ofError e)
      rescue (answer (a.store (.markMinted depositId))) fun e => fail (.internal e)
      modify (·.markMinted (frToHex receipt) depositId position)
      return position
    else fail ⟨"already_minted", "this intent was already credited".toList⟩

/-- Credit a deposit against its registered intent, if there is one. -/
def credit (receiptLe depositId : Text) (amount : Nat) : Prog Product Text Bool := do
  answer (a.store (.intentOf depositId))
  let s ← get
  match s.intentOf receiptLe with
  | none => return false
  | some intent =>
    if intent.amount = amount then
      match frFromHex receiptLe with
      | none => fail "bad receipt".toList
      | some receipt =>
        rescue (do let _ ← creditIntent a receipt depositId; return true) fun p =>
          if p.code = "already_minted" then fail "already credited".toList else fail p.detail
    else fail ("wrong_amount: chain ".toList ++ Nat.toDigits 10 amount ++ ", intent ".toList ++
      Nat.toDigits 10 intent.amount)

/-- The status to record for an attempted credit and what it adds to the count; none to record where the
attempt is to be made again. -/
def judgeCredit (ev : DepositEvent) : Prog Product Text (Option DepositStatus × Nat) :=
  rescue
    (do
      let credited ← credit a ev.receiptHex (ev.depositId ns.chainId) ev.amount
      return if credited then (some .credited, 1) else (some .unregistered, 0))
    fun e =>
      if contains e "wrong_amount".toList then return (some .wrongAmount, 0)
      else if contains e "already".toList then return (some .credited, 0)
      else return (none, 0)

def judge (ev : DepositEvent) : Prog Product Text (Option DepositStatus × Nat) :=
  if ev.token ≠ toLowercase ns.tokenAddress then return (some .wrongToken, 0)
  else if frFromHex ev.receiptHex = none then return (some .badReceipt, 0)
  else judgeCredit a ns ev

def scanDeposit (credited : Nat) (log : Log) : Prog Product Text Nat :=
  if log.removed = true then return credited
  else match decodeDeposit log with
  | .error _ => return credited
  | .ok ev => do
    let (status, more) ← judge a ns ev
    match status with
    | none => return credited
    | some status => do
      let depositId := ev.depositId ns.chainId
      answer (a.store (.observe depositId))
      modify (·.observe ⟨depositId, ev.receiptHex, ev.amount, ev.sender, ev.token, ev.blockNumber, status⟩)
      return credited + more

def confirmWithdrawn (log : Log) : Prog Product Text Unit :=
  match decodeWithdrawn log with
  | .error _ => return ()
  | .ok ev => do
    answer (a.store (.confirmWithdrawal ev.withdrawalId))
    modify (·.confirmWithdrawal ev.withdrawalId ev.txHash)

/-- Where a pass starts: at the cursor, or further back when the block under it was replaced since. -/
def reorgCheck (cursor : Nat × Text) : Prog Product Text Nat :=
  if cursor.2 ≠ [] ∧ 0 < cursor.1 then do
    let current ← answer (a.blockHash cursor.1)
    return if current = some cursor.2 then cursor.1 else cursor.1 - max ns.confirmations 1
  else return cursor.1

/-- The blocks a pass scans: those above the first number, up to the second. -/
def scanRange (startBlock : Nat) : Prog Product Text (Option (Nat × Nat)) := do
  let head ← answer a.head
  let safe := head - ns.confirmations
  answer (a.store .loadCursor)
  let s ← get
  let below ← reorgCheck a ns (s.cursor.getD (startBlock - 1, []))
  return if safe ≤ below then none else some (below, min (below + 2000) safe)

/-- Scan a range of blocks and move the cursor to its end. -/
def scan (below last : Nat) : Prog Product Text Nat := do
  let logs ← answer (a.deposits (below + 1) last)
  let credited ← logs.foldlM (scanDeposit a ns) 0
  let wlogs ← answer (a.withdrawals (below + 1) last)
  wlogs.foldlM (fun _ log => confirmWithdrawn a log) ()
  let hash ← answer (a.lastHash last)
  answer (a.store .saveCursor)
  modify (·.saveCursor last (hash.getD []))
  return credited

/-- One polling pass. Returns the number of deposits credited. -/
def tick (startBlock : Nat) : Prog Product Text Nat := do
  match ← scanRange a ns startBlock with
  | none => return 0
  | some (below, last) => scan a ns below last

/-- Register a deposit intent. An intent already registered for the receipt stays. -/
def registerIntent (c : Crypto) (namespaceId circuitId : Nat) (intent : DepositIntent) :
    Prog Product Problem Unit := do
  if intent.namespaceId ≠ namespaceId then fail ⟨"unknown_namespace", "no such namespace".toList⟩
  else if intent.circuitId ≠ circuitId then fail ⟨"wrong_circuit", "intent is for another circuit".toList⟩
  else if intent.amount = 0 then fail ⟨"malformed", "amount must be positive".toList⟩
  else match proofFromBytes c intent.proof with
  | .error e => fail (.ofError e)
  | .ok proof =>
    if c.verify .deposit proof [intent.amount, intent.receipt] = false then fail (.ofError .invalidProof)
    else do
      rescue (answer (a.store .intentExists)) fun e => fail (.internal e)
      let s ← get
      match s.intentRow (frToHex intent.receipt) with
      | some _ => return ()
      | none => do
        rescue (answer (a.store .insertIntent)) fun e => fail (.internal e)
        modify (·.insertIntent ⟨frToHex intent.receipt, intent, .pending, none, none⟩)

end Peal.Links
