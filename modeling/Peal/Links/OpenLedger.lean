import Peal.Links.Blocks
import Peal.Library.TreeLevels
import Peal.Library.Methods

namespace Peal.Links
open Peal.Fallible Peal.AppendTree Peal.Methods

/-! # The ledger over its open store, statement by statement

`Ledger` takes an accepted envelope in one step. Here each write is a statement of a transaction that may
fail, and the receipt tree keeps every one of its levels. -/

variable (c : Crypto)

/-- The receipt log as it is kept in memory. -/
structure LevelTree where
  depth : Nat
  levels : List (List Fr)
  deriving DecidableEq, Repr

namespace LevelTree

def new (depth : Nat) : LevelTree := ⟨depth, List.replicate (depth + 1) []⟩

def leaves (t : LevelTree) : List Fr := t.levels.getD 0 []

def size (t : LevelTree) : Nat := t.leaves.length

def append (t : LevelTree) (leaf : Fr) : Except Error LevelTree := do
  require (t.size < 2 ^ min t.depth 63) .receiptLogFull
  return { t with levels := appendLevels (treeNode c) 0 leaf t.levels }

def fromLeaves (depth : Nat) (leaves : List Fr) : Except Error LevelTree :=
  leaves.foldlM (append c) (new depth)

def root (t : LevelTree) : Fr :=
  (t.levels.getD t.depth []).headD (zeroDigest (treeNode c) 0 t.depth)

def rootAt (t : LevelTree) (size : Nat) : Except Error Fr := do
  require (size ≤ t.size) (.wallet "size exceeds the log")
  return storedNode (treeNode c) 0 t.levels size t.depth 0

end LevelTree

inductive Write where
  | insertAccount (row : AccountRow)
  | updateAccount (account com : Fr) (seq : Nat)
  | insertReceipt (row : ReceiptRow)
  | insertRoot (row : RootRow)
  | insertDeposit (row : DepositRow)
  | insertOp (row : OpRow)
  deriving DecidableEq, Repr

/-- Insert a row whose key no row of the table has. -/
def insertUnique {ρ κ : Type} [DecidableEq κ] (key : ρ → κ) (column : String) (rows : List ρ) (row : ρ) :
    Except Error (List ρ) := do
  require (∀ r ∈ rows, key r ≠ key row) (.storage s!"UNIQUE constraint failed: {column}")
  return rows ++ [row]

def Store.write (s : Store) : Write → Except Error Store
  | .insertAccount row => do
    let rows ← insertUnique AccountRow.account "accounts.account" s.accounts row
    return { s with accounts := rows }
  | .updateAccount a com seq => .ok { s with accounts := s.accounts.map fun r =>
      if r.account = a then { r with com := com, updated := seq } else r }
  | .insertReceipt row => do
    let rows ← insertUnique ReceiptRow.position "receipts.position" s.receipts row
    return { s with receipts := rows }
  | .insertRoot row => do
    let rows ← insertUnique RootRow.size "roots.size" s.roots row
    return { s with roots := rows }
  | .insertDeposit row => do
    let rows ← insertUnique DepositRow.depositId "deposits.deposit_id" s.deposits row
    return { s with deposits := rows }
  | .insertOp row => do
    let rows ← insertUnique OpRow.seq "ops.seq" s.ops row
    return { s with ops := rows }

inductive Command where
  | beginTx
  | write (w : Write)
  | commit
  deriving DecidableEq, Repr

/-- A connection: what is committed, and what the transaction it has open would make of it. -/
structure Conn where
  store : Store
  tx : Option Store := none
  deriving DecidableEq, Repr

namespace Conn

/-- What a query on the connection reads: an open transaction sees its own writes. -/
def reads (conn : Conn) : Store := conn.tx.getD conn.store

def execute (conn : Conn) : Command → Except Error Conn
  | .beginTx => do
    require (conn.tx = none) (.storage "cannot start a transaction within a transaction")
    return { conn with tx := some conn.store }
  | .write w => do
    let tx ← expect conn.tx (.storage "no transaction is active")
    let tx ← tx.write w
    return { conn with tx := some tx }
  | .commit => do
    let tx ← expect conn.tx (.storage "cannot commit - no transaction is active")
    return ⟨tx, none⟩

/-- A transaction's handle goes out of scope: what it did not commit is rolled back. -/
def dropTx (conn : Conn) : Conn := { conn with tx := none }

end Conn

structure OpenLedger where
  conn : Conn
  inst : Instance
  cfg : LedgerConfig
  tree : LevelTree
  recent : List Fr
  seq : Nat
  stateRoot : Nat
  deriving DecidableEq, Repr

/-- The last `window` roots of `tree`, oldest first. -/
def LevelTree.recentRoots (t : LevelTree) (window : Nat) : List Fr :=
  AppendTree.recentRoots (fun size => storedNode (treeNode c) 0 t.levels size t.depth 0) window t.size

namespace OpenLedger

/-- Which statement of a call's transaction fails, counted from its BEGIN. -/
abbrev Fault := Option Nat

def checkRecorded (store : Store) (tree : LevelTree) : Except Error Unit :=
  if tree.size = 0 then .ok ()
  else do
    let recorded ← expect (store.roots.find? (fun r => r.size = tree.size))
      (.storage "receipt log does not match its recorded root")
    require (recorded.root = tree.root c) (.storage "receipt log does not match its recorded root")

def init (store : Store) (inst : Instance) (cfg : LedgerConfig) : Except Error OpenLedger := do
  let metaRows ← (Ledger.configRows cfg).foldlM bindMeta store.metaRows
  let tree ← LevelTree.fromLeaves c inst.receiptDepth (store.receipts.map (·.leaf))
  checkRecorded c store tree
  return {
    conn := ⟨{ store with metaRows := metaRows }, none⟩
    inst := inst
    cfg := cfg
    tree := tree
    recent := tree.recentRoots c cfg.rootWindow
    seq := (Ledger.lastOp c store cfg).1
    stateRoot := (Ledger.lastOp c store cfg).2 }

def account (o : OpenLedger) (a : Fr) : Option AccountView :=
  (o.conn.reads.accounts.find? (fun r => r.account = a)).map fun r => ⟨a, r.com, r.updated⟩

def rootIsRecent (o : OpenLedger) (root : Fr) : Bool := o.recent.contains root

def initialCommitment (o : OpenLedger) (randomness : Fr) : Fr :=
  c.hash c.domAcct [0, zeroDigest (treeNode c) 0 o.inst.nullDepth, randomness]

def dropTx (o : OpenLedger) : OpenLedger := { o with conn := o.conn.dropTx }

/-- Execute one statement, the `number`th of its transaction. -/
def statement (fault : Fault) (number : Nat) (s : Command) : Method Error OpenLedger Unit := do
  let o ← get
  lift (require (fault ≠ some number) (.storage "disk I/O error"))
  let conn ← lift (o.conn.execute s)
  set { o with conn := conn }

def statements (fault : Fault) : Nat → List Command → Method Error OpenLedger Unit
  | _, [] => pure ()
  | number, s :: rest => do
    statement fault number s
    statements fault (number + 1) rest

/-- Execute the writes of an open transaction and commit it. -/
def writeAll (fault : Fault) (writes : List Write) : Method Error OpenLedger Unit :=
  closing dropTx (statements fault 1 (writes.map .write ++ [.commit]))

/-- Rebuild the tree and its window from the store. -/
def reloadTree : Method Error OpenLedger Unit := do
  let o ← get
  let tree ← lift (LevelTree.fromLeaves c o.inst.receiptDepth (o.conn.reads.receipts.map (·.leaf)))
  set { o with tree := tree, recent := tree.recentRoots c o.cfg.rootWindow }

def register (env : RegisterEnvelope) (fault : Fault) : Method Error OpenLedger Applied := do
  let o ← get
  let a ← lift (env.verify c o.cfg.namespaceId)
  lift (require ((o.account a).isSome = false) .accountExists)
  let com0 := o.initialCommitment c env.randomness
  let seq := o.seq + 1
  let stateRoot := chainRoot c o.stateRoot seq "register" a com0 0 (o.tree.root c)
  statement fault 0 .beginTx
  writeAll fault [.insertAccount ⟨a, env.pubkey, com0, seq, seq⟩,
    .insertOp ⟨seq, a, .register env, none, stateRoot⟩]
  modify fun o => { o with seq := seq, stateRoot := stateRoot }
  return ⟨seq, 2 ^ 64 - 1, o.tree.root c, stateRoot⟩

def admitOp (env : OpEnvelope) (o : OpenLedger) : Except Error Nat := do
  require (env.namespaceId = o.cfg.namespaceId) .wrongNamespace
  require (env.circuitId = o.cfg.circuitId) (.wire "operation is for a different circuit")
  env.verifySignature c
  proofFromBytes c env.proof

/-- Append a receipt in memory and write what it comes with: its row, its root's, the caller's own and the
history's. When a write fails, the tree is rebuilt from the store. -/
def commitReceipt (kind : String) (a com receipt : Fr) (own : Write) (envelope : Envelope) (fault : Fault) :
    Method Error OpenLedger Applied := do
  let o ← get
  let seq := o.seq + 1
  let position := o.tree.size
  let tree ← lift (o.tree.append c receipt)
  let receiptRoot := tree.root c
  set { o with tree := tree, recent := pushRecent o.cfg.rootWindow o.recent receiptRoot }
  let stateRoot := chainRoot c o.stateRoot seq kind a com receipt receiptRoot
  onFailure (reloadTree c) (writeAll fault [.insertReceipt ⟨position, receipt, seq⟩,
    .insertRoot ⟨position + 1, receiptRoot⟩, own, .insertOp ⟨seq, a, envelope, some position, stateRoot⟩])
  modify fun o => { o with seq := seq, stateRoot := stateRoot }
  return ⟨seq, position, receiptRoot, stateRoot⟩

def applyVerified (env : OpEnvelope) (current : AccountView) (fault : Fault) :
    Method Error OpenLedger Applied := do
  let o ← get
  let latest ← lift (expect (o.account env.account) .unknownAccount)
  lift (require (latest.com = current.com) .staleCommitment)
  lift (require (o.rootIsRecent env.root = true) .rootNotRecent)
  statement fault 0 .beginTx
  closing dropTx do
    lift (require (o.tree.size < o.inst.maxPositions) .receiptLogFull)
    commitReceipt c "op" env.account env.comNew env.receipt
      (.updateAccount env.account env.comNew (o.seq + 1)) (.op env) fault

/-- What is checked of an operation before its proof: its form, its account's commitment and its root. -/
def screen (env : OpEnvelope) (o : OpenLedger) : Except Error (Nat × AccountView) := do
  let proof ← admitOp c env o
  let current ← expect (o.account env.account) .unknownAccount
  require (current.com = env.com) .staleCommitment
  require (o.rootIsRecent env.root = true) .rootNotRecent
  return (proof, current)

def apply (env : OpEnvelope) (fault : Fault) : Method Error OpenLedger Applied := do
  let o ← get
  let (proof, current) ← lift (screen c env o)
  lift (require (c.verify .op proof (Ledger.publicInput env current.com) = true) .invalidProof)
  applyVerified c env current fault

def mintShape (env : MintEnvelope) (o : OpenLedger) : Except Error Unit := do
  require (env.intent.namespaceId = o.cfg.namespaceId) .wrongNamespace
  require (env.intent.circuitId = o.cfg.circuitId) (.wire "deposit is for a different circuit")
  require (¬(env.depositId = [] ∨ 200 < Ledger.textLen env.depositId)) (.wire "bad deposit id")

def credited (o : OpenLedger) (depositId : Text) : Bool :=
  o.conn.reads.deposits.any fun r => r.depositId = depositId

def mint (env : MintEnvelope) (fault : Fault) : Method Error OpenLedger Applied := do
  let intent := env.intent
  let o ← get
  lift (mintShape env o)
  lift (require (o.credited env.depositId = false) (.storage "deposit already credited"))
  lift (Ledger.mintProof c env)
  lift (require (o.tree.size < o.inst.maxPositions) .receiptLogFull)
  statement fault 0 .beginTx
  closing dropTx do
    commitReceipt c "mint" (mintSender c) intent.amount intent.receipt
      (.insertDeposit ⟨env.depositId, intent.receipt, intent.amount, o.seq + 1⟩) (.mint env) fault

/-- An operation of a batch that passed its checks against the state before it, and the result it goes to. -/
structure Candidate where
  slot : Nat
  env : OpEnvelope
  proof : Nat
  current : AccountView
  deriving DecidableEq, Repr

abbrev Slots := List (Option (Except Error Applied))

def screenStep (o : OpenLedger) (found : List Candidate × Slots) (member : OpEnvelope × Nat) :
    List Candidate × Slots :=
  match screen c member.1 o with
  | .ok (proof, current) => (found.1 ++ [⟨member.2, member.1, proof, current⟩], found.2)
  | .error e => (found.1, found.2.set member.2 (some (.error e)))

def screenAll (o : OpenLedger) (envs : List OpEnvelope) : List Candidate × Slots :=
  envs.zipIdx.foldl (screenStep c o) ([], List.replicate envs.length none)

variable (batchVerify : Nat → List (Nat × List Fr) → Bool)

def claim (k : Candidate) : Nat × List Fr := (k.proof, Ledger.publicInput k.env k.current.com)

/-- Verify all the claims at once, and each alone if that fails. -/
def validity (coins : Nat) (claims : List (Nat × List Fr)) : List Bool :=
  if batchVerify coins claims = true then List.replicate claims.length true
  else claims.map fun cl => c.verify .op cl.1 cl.2

/-- The candidates of a batch, each with whether its proof passed. -/
def members (coins : Nat) (envs : List OpEnvelope) (o : OpenLedger) : List (Candidate × Bool) :=
  let candidates := (screenAll c o envs).1
  candidates.zip (validity c batchVerify coins (candidates.map claim))

/-- An earlier member may have moved the account: it is read again. -/
def applyMember (env : OpEnvelope) (current : AccountView) (valid : Bool) (fault : Fault) :
    Method Error OpenLedger Applied := do
  lift (require (valid = true) .invalidProof)
  let o ← get
  let now ← lift (expect (o.account env.account) .unknownAccount)
  lift (require (now.com = current.com) .staleCommitment)
  applyVerified c env now fault

def memberStep (faults : Nat → Fault) (done : Slots × OpenLedger) (k : Candidate × Bool) :
    Slots × OpenLedger :=
  let result := outcome (applyMember c k.1.env k.1.current k.2 (faults k.1.slot)) done.2
  (done.1.set k.1.slot (some result.1), result.2)

/-- The results in the order of the envelopes, none if some slot was left unfilled. -/
def applyBatch (coins : Nat) (envs : List OpEnvelope) (faults : Nat → Fault) (o : OpenLedger) :
    Option (List (Except Error Applied)) × OpenLedger :=
  let done := (members c batchVerify coins envs o).foldl (memberStep c faults) ((screenAll c o envs).2, o)
  (done.1.mapM id, done.2)

inductive Call where
  | register (env : RegisterEnvelope) (fault : Fault)
  | apply (env : OpEnvelope) (fault : Fault)
  | applyBatch (coins : Nat) (envs : List OpEnvelope) (faults : Nat → Fault)
  | mint (env : MintEnvelope) (fault : Fault)

/-- The ledger after a call, accepted or refused. -/
def perform (o : OpenLedger) : Call → OpenLedger
  | .register env fault => (outcome (register c env fault) o).2
  | .apply env fault => (outcome (apply c env fault) o).2
  | .applyBatch coins envs faults => (applyBatch c batchVerify coins envs faults o).2
  | .mint env fault => (outcome (mint c env fault) o).2

def run (o : OpenLedger) (calls : List Call) : OpenLedger := calls.foldl (perform c batchVerify) o

/-- The ledger that opening an empty store yields. -/
def fresh (inst : Instance) (cfg : LedgerConfig) : OpenLedger where
  conn := ⟨{ metaRows := Ledger.configRows cfg }, none⟩
  inst := inst
  cfg := cfg
  tree := LevelTree.new inst.receiptDepth
  recent := (LevelTree.new inst.receiptDepth).recentRoots c cfg.rootWindow
  seq := 0
  stateRoot := genesisRoot c cfg

end OpenLedger

end Peal.Links
