import Peal.Links.Ledger

namespace Peal.Links
open Peal.Fallible Peal.AppendTree

/-! # The private state of one account -/

structure ReceiptOpening where
  amount : Nat
  sender : Fr
  receiver : Fr
  randomness : Fr
  deriving DecidableEq, Repr

structure MerklePath where
  siblings : List Fr
  indexBits : List Bool
  deriving DecidableEq, Repr

/-- The positions a wallet has claimed, as the leaves of a sparse tree. -/
structure ClaimedSet where
  depth : Nat
  positions : List Nat
  deriving DecidableEq, Repr

structure SmtInsertion where
  oldRoot : Fr
  newRoot : Fr
  pid : Nat
  siblings : List Fr
  deriving DecidableEq, Repr

/-- The witness a proof is made from. -/
structure OpCircuit where
  isSend : Bool
  acct : Fr
  b : Nat
  v : Nat
  r : Fr
  rNew : Fr
  rootNull : Fr
  counterparty : Fr
  rReceipt : Fr
  rDummy : Fr
  root : Fr
  pos : Nat
  path : MerklePath
  nullInsert : SmtInsertion
  deriving DecidableEq, Repr

/-- The circuit and the prover, with the key that signs an envelope. -/
structure Prover where
  com : OpCircuit → Fr
  comNew : OpCircuit → Fr
  receiptOut : OpCircuit → Fr
  prove : OpCircuit → Bytes
  sign : List Nat → Nat

variable (c : Crypto)

def receiptCommitment (o : ReceiptOpening) : Fr :=
  c.hash c.domRec [o.amount, o.sender, o.receiver, 1, o.randomness]

def rootFromPath (leaf : Fr) (path : MerklePath) : Fr :=
  (path.siblings.zip path.indexBits).foldl
    (fun n step => if step.2 then treeNode c step.1 n else treeNode c n step.1) leaf

namespace ClaimedSet

def contains (s : ClaimedSet) (pid : Nat) : Bool := s.positions.contains pid

def node (s : ClaimedSet) : Nat → Nat → Fr
  | 0, index => if s.contains index then 1 else 0
  | height + 1, index => treeNode c (s.node height (2 * index)) (s.node height (2 * index + 1))

def root (s : ClaimedSet) : Fr := s.node c s.depth 0

def insert (s : ClaimedSet) (pid : Nat) : Except Error (ClaimedSet × SmtInsertion) := do
  require (¬(s.depth < 64 ∧ 2 ^ s.depth ≤ pid))
    (.wallet s!"position {pid} exceeds the {s.depth}-bit position space")
  require (s.contains pid = false) (.wallet s!"position {pid} already claimed")
  let s' : ClaimedSet := { s with positions := s.positions ++ [pid] }
  return (s', ⟨s.root c, s'.root c, pid,
    (List.range s.depth).map fun h => s.node c h ((pid / 2 ^ h) ^^^ 1)⟩)

end ClaimedSet

inductive ReceiptStatus where
  | discovered
  | verified
  | unclaimed
  | claiming
  | claimed
  | invalid
  deriving DecidableEq, Repr

structure HeldReceipt where
  position : Nat
  receipt : Fr
  opening : ReceiptOpening
  status : ReceiptStatus
  reference : Option Text
  discoveredAt : Nat
  deriving DecidableEq, Repr

inductive PendingKind where
  | send (amount : Nat) (recipient : Fr) (opening : ReceiptOpening) (reference : Option Text)
  | receive (position amount : Nat)
  deriving DecidableEq, Repr

structure PendingOp where
  kind : PendingKind
  comOld : Fr
  comNew : Fr
  rNew : Fr
  receiptOut : Fr
  root : Fr
  claimedAfter : Option ClaimedSet
  envelope : Option OpEnvelope
  createdAt : Nat
  deriving DecidableEq, Repr

structure HistoryEntry where
  seq : Nat
  kind : String
  amount : Nat
  counterparty : Fr
  position : Option Nat
  reference : Option Text
  time : Nat
  deriving DecidableEq, Repr

structure PendingDeposit where
  receipt : Fr
  opening : ReceiptOpening
  reference : Option Text
  createdAt : Nat
  deriving DecidableEq, Repr

structure Wallet where
  circuitId : Nat
  namespaceId : Namespace
  pubkey : Nat
  account : Fr
  balance : Nat
  randomness : Fr
  claimed : ClaimedSet
  registered : Bool
  pending : Option PendingOp
  receipts : List HeldReceipt
  history : List HistoryEntry
  seq : Nat
  knownRoots : List Fr
  pendingDeposits : List PendingDeposit
  sentOpenings : List (Nat × ReceiptOpening)
  deriving DecidableEq, Repr

structure ReceiptWitness where
  path : MerklePath
  root : Fr
  deriving DecidableEq, Repr

inductive Reconciled where
  | inSync
  | committed
  | aborted
  | conflict
  deriving DecidableEq, Repr

namespace Wallet

def commitment (w : Wallet) : Fr := c.hash c.domAcct [w.balance, w.claimed.root c, w.randomness]

def requireIdle (w : Wallet) : Except Error Unit :=
  require (w.pending = none) (.wallet "an operation is pending; commit, abort or reconcile it first")

variable (prover : Prover)

def prepareSend (w : Wallet) (inst : Instance) (amount : Nat) (recipient root : Fr) (reference : Option Text)
    (now : Nat) (rNew rReceipt : Fr) : Except Error (Wallet × OpCircuit) := do
  w.requireIdle
  require (w.registered = true) (.wallet "account is not registered")
  require (amount ≤ w.balance) (.wallet s!"insufficient balance: {w.balance} < {amount}")
  let circuit : OpCircuit := {
    isSend := true
    acct := w.account
    b := w.balance
    v := amount
    r := w.randomness
    rNew := rNew
    rootNull := w.claimed.root c
    counterparty := recipient
    rReceipt := rReceipt
    rDummy := 0
    root := root
    pos := 0
    path := ⟨List.replicate inst.receiptDepth 0, List.replicate inst.receiptDepth false⟩
    nullInsert := ⟨0, 0, 0, []⟩ }
  let opening : ReceiptOpening := ⟨amount, w.account, recipient, rReceipt⟩
  return ({ w with pending := some {
    kind := .send amount recipient opening reference
    comOld := prover.com circuit
    comNew := prover.comNew circuit
    rNew := rNew
    receiptOut := prover.receiptOut circuit
    root := root
    claimedAfter := none
    envelope := none
    createdAt := now } }, circuit)

/-- Replace the status of one held receipt. -/
def setStatus (w : Wallet) (idx : Nat) (status : ReceiptStatus) : Wallet :=
  { w with receipts := w.receipts.modify idx fun r => { r with status := status } }

/-- Replace the status of the first receipt held for a position. -/
def setStatusAt (w : Wallet) (position : Nat) (status : ReceiptStatus) : Wallet :=
  match w.receipts.findIdx? (fun r => r.position = position) with
  | some idx => w.setStatus idx status
  | none => w

def receiptVerifies (w : Wallet) (r : HeldReceipt) (witness : ReceiptWitness) : Bool :=
  receiptCommitment c r.opening = r.receipt ∧ r.opening.receiver = w.account ∧
    rootFromPath c r.receipt witness.path = witness.root ∧ w.claimed.contains r.position = false

def verifyReceipt (w : Wallet) (idx : Nat) (witness : ReceiptWitness) : Except Error (Wallet × Bool) := do
  let r ← expect w.receipts[idx]? (.wallet "no such receipt")
  if w.receiptVerifies c r witness then
    let w' := w.setStatus idx .unclaimed
    return ({ w' with knownRoots :=
      if w'.knownRoots.contains witness.root then w'.knownRoots else w'.knownRoots ++ [witness.root] }, true)
  else
    return (w.setStatus idx .invalid, false)

/-- Record an incoming opening, unless one is held for its position already. -/
def addReceipt (w : Wallet) (position : Nat) (opening : ReceiptOpening) (reference : Option Text)
    (now : Nat) : Wallet × Nat :=
  match w.receipts.findIdx? (fun r => r.position = position) with
  | some i => (w, i)
  | none =>
    ({ w with receipts := w.receipts ++
      [⟨position, receiptCommitment c opening, opening, .discovered, reference, now⟩] }, w.receipts.length)

def prepareReceive (w : Wallet) (inst : Instance) (idx : Nat) (witness : ReceiptWitness) (now : Nat)
    (rNew rDummy : Fr) : Except Error (Wallet × OpCircuit) := do
  w.requireIdle
  require (w.registered = true) (.wallet "account is not registered")
  let held ← expect w.receipts[idx]? (.wallet "no such receipt")
  require (held.opening.receiver = w.account) (.wallet "receipt is not addressed to this account")
  require (receiptCommitment c held.opening = held.receipt ∧
    rootFromPath c held.receipt witness.path = witness.root)
    (.wallet "receipt does not open under the given root")
  require (held.position < inst.maxPositions) (.wallet "position outside the log")
  require (w.balance + held.opening.amount < 2 ^ 64) (.wallet "balance would overflow")
  let (claimedAfter, insertion) ← w.claimed.insert c held.position
  let circuit : OpCircuit := {
    isSend := false
    acct := w.account
    b := w.balance
    v := held.opening.amount
    r := w.randomness
    rNew := rNew
    rootNull := 0
    counterparty := held.opening.sender
    rReceipt := held.opening.randomness
    rDummy := rDummy
    root := witness.root
    pos := held.position
    path := witness.path
    nullInsert := insertion }
  return ({ w.setStatus idx .claiming with pending := some {
    kind := .receive held.position held.opening.amount
    comOld := prover.com circuit
    comNew := prover.comNew circuit
    rNew := rNew
    receiptOut := prover.receiptOut circuit
    root := witness.root
    claimedAfter := some claimedAfter
    envelope := none
    createdAt := now } }, circuit)

/-- Prove the pending operation and journal its signed envelope. -/
def provePending (w : Wallet) (keysCircuitId : Nat) (circuit : OpCircuit) :
    Except Error (Wallet × OpEnvelope) := do
  let p ← expect w.pending (.wallet "nothing pending")
  require (keysCircuitId = w.circuitId) (.wallet "keys are for a different circuit")
  require (prover.comNew circuit = p.comNew ∧ prover.receiptOut circuit = p.receiptOut)
    (.wallet "circuit does not match the pending operation")
  let unsigned : OpEnvelope := {
    namespaceId := w.namespaceId
    circuitId := w.circuitId
    account := w.account
    com := p.comOld
    comNew := p.comNew
    receipt := p.receiptOut
    root := p.root
    proof := prover.prove circuit
    pubkey := w.pubkey
    signature := 0 }
  let env := { unsigned with signature := prover.sign unsigned.signingBytes }
  return ({ w with pending := some { p with envelope := some env } }, env)

/-- The state after the pending operation, once the ledger accepted it at `position`. -/
def committed (w : Wallet) (p : PendingOp) (position now : Nat) : Wallet :=
  match p.kind with
  | .send amount recipient opening reference =>
    { w with
      pending := none
      seq := w.seq + 1
      balance := w.balance - amount
      sentOpenings := w.sentOpenings ++ [(position, opening)]
      history := w.history ++ [⟨w.seq + 1, "send", amount, recipient, some position, reference, now⟩]
      randomness := p.rNew }
  | .receive claimedPos amount =>
    let held := w.receipts.find? (fun r => r.position = claimedPos)
    { w.setStatusAt claimedPos .claimed with
      pending := none
      seq := w.seq + 1
      balance := w.balance + amount
      claimed := p.claimedAfter.getD w.claimed
      history := w.history ++ [⟨w.seq + 1, "receive", amount, (held.map (·.opening.sender)).getD 0,
        some claimedPos, held.bind (·.reference), now⟩]
      randomness := p.rNew }

def commitPending (w : Wallet) (position now : Nat) : Except Error Wallet := do
  let p ← expect w.pending (.wallet "nothing pending")
  return w.committed p position now

def abortPending (w : Wallet) : Wallet :=
  match w.pending with
  | some { kind := .receive position _, .. } => { w.setStatusAt position .unclaimed with pending := none }
  | _ => { w with pending := none }

/-- Resolve an unknown outcome from the ledger's current commitment for the account. -/
def reconcile (w : Wallet) (ledgerCom : Fr) (position : Option Nat) (now : Nat) :
    Except Error (Wallet × Reconciled) :=
  match w.pending with
  | none => .ok (w, if ledgerCom = w.commitment c then .inSync else .conflict)
  | some p =>
    if ledgerCom = p.comNew then do
      let pos ← expect position (.wallet "accepted op needs its position")
      let w' ← w.commitPending pos now
      return (w', .committed)
    else if ledgerCom = p.comOld then .ok (w.abortPending, .aborted)
    else .ok (w, .conflict)

/-- Keep the opening of a deposit made but not yet minted. -/
def prepareDeposit (w : Wallet) (amount : Nat) (reference : Option Text) (now : Nat) (randomness : Fr) :
    Wallet × ReceiptOpening :=
  let opening : ReceiptOpening := ⟨amount, mintSender c, w.account, randomness⟩
  ({ w with pendingDeposits := w.pendingDeposits ++
    [⟨receiptCommitment c opening, opening, reference, now⟩] }, opening)

/-- Move a minted deposit from the pending deposits to the held receipts. -/
def depositMinted (w : Wallet) (receipt : Fr) (position now : Nat) : Option (Wallet × Nat) :=
  match w.pendingDeposits.findIdx? (fun d => d.receipt = receipt) with
  | none => none
  | some idx =>
    w.pendingDeposits[idx]?.map fun d =>
      addReceipt c { w with pendingDeposits := w.pendingDeposits.eraseIdx idx } position d.opening
        d.reference now

end Wallet

end Peal.Links
