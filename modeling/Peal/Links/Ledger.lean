import Peal.Links.Types
import Peal.Library.AppendTree

namespace Peal.Links
open Peal.Fallible Peal.AppendTree

/-! # One namespace's ledger -/

structure Instance where
  receiptDepth : Nat
  nullDepth : Nat
  deriving DecidableEq, Repr

def Instance.maxPositions (inst : Instance) : Nat := 2 ^ inst.receiptDepth

/-- The receipt log; its levels are a cache of the nodes over `leaves`. -/
structure ReceiptTree where
  depth : Nat
  leaves : List Fr
  deriving DecidableEq, Repr

section Tree

variable (c : Crypto)

def treeNode (l r : Fr) : Fr := c.hash c.domNode [l, r]

namespace ReceiptTree

def new (depth : Nat) : ReceiptTree := ⟨depth, []⟩

def size (t : ReceiptTree) : Nat := t.leaves.length

def append (t : ReceiptTree) (leaf : Fr) : Except Error ReceiptTree := do
  require (t.size < 2 ^ min t.depth 63) .receiptLogFull
  return { t with leaves := t.leaves ++ [leaf] }

def fromLeaves (depth : Nat) (leaves : List Fr) : Except Error ReceiptTree :=
  leaves.foldlM append (new depth)

/-- The root of the tree that held `size` leaves, for a size within the log. -/
def rootWhen (t : ReceiptTree) (size : Nat) : Fr := nodeAt (treeNode c) 0 t.leaves size t.depth 0

def rootAt (t : ReceiptTree) (size : Nat) : Except Error Fr := do
  require (size ≤ t.size) (.wallet "size exceeds the log")
  return t.rootWhen c size

def root (t : ReceiptTree) : Fr := t.rootWhen c t.size

end ReceiptTree

end Tree

structure LedgerConfig where
  namespaceId : Namespace
  circuitId : Nat
  rootWindow : Nat
  deriving DecidableEq, Repr

structure AccountRow where
  account : Fr
  pubkey : Nat
  com : Fr
  registered : Nat
  updated : Nat
  deriving DecidableEq, Repr

structure ReceiptRow where
  position : Nat
  leaf : Fr
  opSeq : Nat
  deriving DecidableEq, Repr

structure RootRow where
  size : Nat
  root : Fr
  deriving DecidableEq, Repr

structure DepositRow where
  depositId : Text
  receipt : Fr
  amount : Nat
  opSeq : Nat
  deriving DecidableEq, Repr

structure OpRow where
  seq : Nat
  account : Fr
  envelope : Envelope
  position : Option Nat
  stateRoot : Nat
  deriving DecidableEq, Repr

structure MetaRow where
  key : String
  value : Nat
  deriving DecidableEq, Repr

/-- The durable tables, each in the order of its key. -/
structure Store where
  metaRows : List MetaRow := []
  accounts : List AccountRow := []
  receipts : List ReceiptRow := []
  roots : List RootRow := []
  deposits : List DepositRow := []
  ops : List OpRow := []
  deriving DecidableEq, Repr

structure Applied where
  seq : Nat
  position : Nat
  receiptRoot : Fr
  stateRoot : Nat
  deriving DecidableEq, Repr

structure AccountView where
  account : Fr
  com : Fr
  updatedSeq : Nat
  deriving DecidableEq, Repr

structure Ledger where
  inst : Instance
  cfg : LedgerConfig
  store : Store
  tree : ReceiptTree
  recent : List Fr
  seq : Nat
  stateRoot : Nat
  deriving DecidableEq, Repr

variable (c : Crypto)

def genesisRoot (cfg : LedgerConfig) : Nat :=
  c.sha256 [.text "peal-links/v1/state-genesis", .word cfg.namespaceId, .word cfg.circuitId]

def chainRoot (prev seq : Nat) (kind : String) (account com receipt receiptRoot : Fr) : Nat :=
  c.sha256 [.text "peal-links/v1/state", .word prev, .word seq, .text kind, .word account, .word com,
    .word receipt, .word receiptRoot]

/-- Bind the store to a configuration value, or refuse one that differs from what it is bound to. -/
def bindMeta (rows : List MetaRow) (row : MetaRow) : Except Error (List MetaRow) :=
  match rows.find? (fun r => r.key = row.key) with
  | none => .ok (rows ++ [row])
  | some existing =>
    if existing.value = row.value then .ok rows
    else .error (.storage s!"store is bound to {row.key} {existing.value}, opened with {row.value}")

def recentFromTree (t : ReceiptTree) (window : Nat) : List Fr :=
  recentRoots (t.rootWhen c) window t.size

namespace Ledger

def configRows (cfg : LedgerConfig) : List MetaRow :=
  [⟨"namespace", cfg.namespaceId⟩, ⟨"circuit_id", cfg.circuitId⟩]

def lastOp (store : Store) (cfg : LedgerConfig) : Nat × Nat :=
  match store.ops.getLast? with
  | some row => (row.seq, row.stateRoot)
  | none => (0, genesisRoot c cfg)

/-- The root recorded for the current size must be the rebuilt tree's root. -/
def checkRecorded (store : Store) (tree : ReceiptTree) : Except Error Unit :=
  if tree.size = 0 then .ok ()
  else do
    let recorded ← expect (store.roots.find? (fun r => r.size = tree.size))
      (.storage "receipt log does not match its recorded root")
    require (recorded.root = tree.root c) (.storage "receipt log does not match its recorded root")

def init (store : Store) (inst : Instance) (cfg : LedgerConfig) : Except Error Ledger := do
  let metaRows ← (configRows cfg).foldlM bindMeta store.metaRows
  let tree ← ReceiptTree.fromLeaves inst.receiptDepth (store.receipts.map (·.leaf))
  checkRecorded c store tree
  return {
    inst := inst
    cfg := cfg
    store := { store with metaRows := metaRows }
    tree := tree
    recent := recentFromTree c tree cfg.rootWindow
    seq := (lastOp c store cfg).1
    stateRoot := (lastOp c store cfg).2 }

def account (l : Ledger) (a : Fr) : Option AccountView :=
  (l.store.accounts.find? (fun r => r.account = a)).map fun r => ⟨a, r.com, r.updated⟩

def rootIsRecent (l : Ledger) (root : Fr) : Bool := l.recent.contains root

def initialCommitment (l : Ledger) (randomness : Fr) : Fr :=
  c.hash c.domAcct [0, zeroDigest (treeNode c) 0 l.inst.nullDepth, randomness]

/-- Write the history row every accepted envelope leaves, and advance the chained state root. -/
def record (l : Ledger) (a : Fr) (envelope : Envelope) (position : Option Nat) (root : Nat) : Ledger :=
  { l with
    store := { l.store with ops := l.store.ops ++ [⟨l.seq + 1, a, envelope, position, root⟩] }
    seq := l.seq + 1
    stateRoot := root }

def insertAccount (l : Ledger) (row : AccountRow) : Ledger :=
  { l with store := { l.store with accounts := l.store.accounts ++ [row] } }

def updateAccount (l : Ledger) (a com : Fr) (seq : Nat) : Ledger :=
  { l with store := { l.store with accounts := l.store.accounts.map fun r =>
      if r.account = a then { r with com := com, updated := seq } else r } }

def insertDeposit (l : Ledger) (row : DepositRow) : Ledger :=
  { l with store := { l.store with deposits := l.store.deposits ++ [row] } }

/-- Append a receipt: its leaf, its row, the new root's row and the window of recent roots. -/
def logReceipt (l : Ledger) (receipt : Fr) : Except Error Ledger := do
  let tree ← l.tree.append receipt
  return { l with
    store := { l.store with
      receipts := l.store.receipts ++ [⟨l.tree.size, receipt, l.seq + 1⟩]
      roots := l.store.roots ++ [⟨l.tree.size + 1, tree.root c⟩] }
    tree := tree
    recent := pushRecent l.cfg.rootWindow l.recent (tree.root c) }

def register (l : Ledger) (env : RegisterEnvelope) : Except Error (Ledger × Applied) := do
  let a ← env.verify c l.cfg.namespaceId
  require ((l.account a).isSome = false) .accountExists
  let com0 := l.initialCommitment c env.randomness
  let seq := l.seq + 1
  let stateRoot := chainRoot c l.stateRoot seq "register" a com0 0 (l.tree.root c)
  let l' := (l.insertAccount ⟨a, env.pubkey, com0, seq, seq⟩).record a (.register env) none stateRoot
  return (l', ⟨seq, 2 ^ 64 - 1, l.tree.root c, stateRoot⟩)

def admitOp (l : Ledger) (env : OpEnvelope) : Except Error Nat := do
  require (env.namespaceId = l.cfg.namespaceId) .wrongNamespace
  require (env.circuitId = l.cfg.circuitId) (.wire "operation is for a different circuit")
  env.verifySignature c
  proofFromBytes c env.proof

def publicInput (env : OpEnvelope) (comOld : Fr) : List Fr :=
  [env.account, comOld, env.comNew, env.receipt, env.root]

def applyVerified (l : Ledger) (env : OpEnvelope) (current : AccountView) :
    Except Error (Ledger × Applied) := do
  let latest ← expect (l.account env.account) .unknownAccount
  require (latest.com = current.com) .staleCommitment
  require (l.rootIsRecent env.root = true) .rootNotRecent
  let seq := l.seq + 1
  let position := l.tree.size
  require (position < l.inst.maxPositions) .receiptLogFull
  let l' ← l.logReceipt c env.receipt
  let receiptRoot := l'.tree.root c
  let stateRoot := chainRoot c l.stateRoot seq "op" env.account env.comNew env.receipt receiptRoot
  return ((l'.updateAccount env.account env.comNew seq).record env.account (.op env) (some position)
    stateRoot, ⟨seq, position, receiptRoot, stateRoot⟩)

def apply (l : Ledger) (env : OpEnvelope) : Except Error (Ledger × Applied) := do
  let proof ← l.admitOp c env
  let current ← expect (l.account env.account) .unknownAccount
  require (current.com = env.com) .staleCommitment
  require (l.rootIsRecent env.root = true) .rootNotRecent
  require (c.verify .op proof (publicInput env current.com) = true) .invalidProof
  l.applyVerified c env current

def checkOp (l : Ledger) (env : OpEnvelope) : Except Error Unit := do
  let proof ← l.admitOp c env
  require (c.verify .op proof (publicInput env env.com) = true) .invalidProof

def checkRegister (l : Ledger) (env : RegisterEnvelope) : Except Error Unit := do
  let _ ← env.verify c l.cfg.namespaceId

def depositInput (amount : Nat) (receipt : Fr) : List Fr := [amount, receipt]

/-- The byte length of a deposit id. -/
def textLen (s : Text) : Nat := (s.map Char.utf8Size).sum

/-- The checks of a mint's envelope that precede the lookup of its deposit id. -/
def mintShape (l : Ledger) (env : MintEnvelope) : Except Error Unit := do
  require (env.intent.namespaceId = l.cfg.namespaceId) .wrongNamespace
  require (env.intent.circuitId = l.cfg.circuitId) (.wire "deposit is for a different circuit")
  require (¬(env.depositId = [] ∨ 200 < textLen env.depositId)) (.wire "bad deposit id")

def mintProof (env : MintEnvelope) : Except Error Unit := do
  let proof ← proofFromBytes c env.intent.proof
  require (c.verify .deposit proof (depositInput env.intent.amount env.intent.receipt) = true)
    .invalidProof

def checkMint (l : Ledger) (env : MintEnvelope) : Except Error Unit := do
  l.mintShape env
  mintProof c env

def credited (l : Ledger) (depositId : Text) : Bool :=
  l.store.deposits.any fun r => r.depositId = depositId

def mint (l : Ledger) (env : MintEnvelope) : Except Error (Ledger × Applied) := do
  let intent := env.intent
  l.mintShape env
  require (l.credited env.depositId = false) (.storage "deposit already credited")
  mintProof c env
  let seq := l.seq + 1
  let position := l.tree.size
  require (position < l.inst.maxPositions) .receiptLogFull
  let l' ← l.logReceipt c intent.receipt
  let receiptRoot := l'.tree.root c
  let stateRoot := chainRoot c l.stateRoot seq "mint" (mintSender c) intent.amount intent.receipt
    receiptRoot
  return ((l'.insertDeposit ⟨env.depositId, intent.receipt, intent.amount, seq⟩).record
    (mintSender c) (.mint env) (some position) stateRoot, ⟨seq, position, receiptRoot, stateRoot⟩)

/-- Base units ever minted into the namespace. -/
def mintedTotal (l : Ledger) : Nat := (l.store.deposits.map (·.amount)).sum

end Ledger

end Peal.Links
