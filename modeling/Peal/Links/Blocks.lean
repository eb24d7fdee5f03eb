import Peal.Links.Reopen
import Peal.Library.Runs

namespace Peal.Links
open Peal.Fallible Peal.Runs

/-! # Blocks, and the replicated state they apply to -/

abbrev Id := Nat

structure Tx where
  namespaceId : Namespace
  envelope : Envelope
  deriving DecidableEq, Repr

structure Block where
  version : Nat
  epoch : Nat
  view : Nat
  height : Nat
  parent : Id
  txs : List Tx
  deriving DecidableEq, Repr

@[ext]
structure Head where
  height : Nat
  digest : Id
  root : Nat
  deriving DecidableEq, Repr

abbrev Ledgers := Namespace → Option Ledger

@[ext]
structure State where
  namespaces : List Namespace
  ledgers : Ledgers
  genesis : Id
  head : Head
  blocks : List (Id × Block)

variable (c : Crypto)

def Ledger.transition (l : Ledger) : Envelope → Except Error (Ledger × Applied)
  | .register env => l.register c env
  | .op env => l.apply c env
  | .mint env => l.mint c env

def applyTx (ledgers : Ledgers) (tx : Tx) : Except Error (Ledgers × Applied) := do
  let l ← expect (ledgers tx.namespaceId) .wrongNamespace
  let (l', applied) ← l.transition c tx.envelope
  return (Function.update ledgers tx.namespaceId (some l'), applied)

/-- Apply transactions in order; a refused one leaves the ledgers as they are. -/
def applyTxs : Ledgers → List Tx → Ledgers × List (Except Error Applied)
  | ledgers, [] => (ledgers, [])
  | ledgers, tx :: txs =>
    match applyTx c ledgers tx with
    | .ok (next, applied) => ((applyTxs next txs).1, .ok applied :: (applyTxs next txs).2)
    | .error e => ((applyTxs ledgers txs).1, .error e :: (applyTxs ledgers txs).2)

def combinedRoot (namespaces : List Namespace) (ledgers : Ledgers) : Nat :=
  c.sha256 (.text "peal-links/v1/consensus/state" :: namespaces.flatMap fun ns =>
    match ledgers ns with
    | some l => [.word ns, .word l.stateRoot]
    | none => [])

namespace State

def checkTx (s : State) (tx : Tx) : Except Error Unit := do
  let l ← expect (s.ledgers tx.namespaceId) .wrongNamespace
  match tx.envelope with
  | .register env => l.checkRegister c env
  | .op env => l.checkOp c env
  | .mint env => l.checkMint c env

def checkBlock (s : State) (block : Block) : Except Error Unit :=
  block.txs.forM (s.checkTx c)

def Extends (s : State) (block : Block) : Prop :=
  block.parent = s.head.digest ∧ block.height = s.head.height + 1

instance (s : State) (block : Block) : Decidable (s.Extends block) :=
  inferInstanceAs (Decidable (_ ∧ _))

/-- Record a block and the head it makes, over the ledgers it produced. -/
def commit (s : State) (block : Block) (digest : Id) (ledgers : Ledgers) : State :=
  { s with
    ledgers := ledgers
    blocks := (s.blocks.filter fun b => b.1 ≠ digest) ++ [(digest, block)]
    head := ⟨block.height, digest, combinedRoot c s.namespaces ledgers⟩ }

/-- Every transaction in order, and only then the block and the new head. -/
def applyBlock (s : State) (block : Block) (digest : Id) :
    Except String (State × List (Except Error Applied)) := do
  require (s.Extends block)
    s!"block {digest} at height {block.height} does not extend the head {s.head.digest} at height {s.head.height}"
  let (ledgers, results) := applyTxs c s.ledgers block.txs
  return (s.commit c block digest ledgers, results)

/-- The state a validator starts from, over empty stores. -/
def fresh (inst : Instance) (circuitId window : Nat) (namespaces : List Namespace)
    (genesis : Id) : State where
  namespaces := namespaces
  ledgers ns := if ns ∈ namespaces then some (Ledger.fresh c inst ⟨ns, circuitId, window⟩) else none
  genesis := genesis
  head := ⟨0, genesis, combinedRoot c namespaces fun ns =>
    if ns ∈ namespaces then some (Ledger.fresh c inst ⟨ns, circuitId, window⟩) else none⟩
  blocks := []

/-- Open every ledger's store again, and the block store with the head it recorded. -/
def reopen (s : State) : Except Error State := do
  let ledgers ← s.namespaces.foldlM (fun ledgers ns => do
    let l ← expect (s.ledgers ns) .wrongNamespace
    let l' ← Ledger.init c l.store l.inst l.cfg
    return Function.update ledgers ns (some l')) s.ledgers
  return { s with
    ledgers := ledgers
    head := { s.head with root := combinedRoot c s.namespaces ledgers } }

end State

/-- The state's side of one block, as a step. -/
def blockStep (s : State) (b : Block × Id) : Except String State :=
  (s.applyBlock c b.1 b.2).map Prod.fst

/-- The ledgers' side of one transaction, as a step. -/
def txStep (ledgers : Ledgers) (tx : Tx) : Except Error Ledgers :=
  (applyTx c ledgers tx).map Prod.fst

lemma applyTxs_fst (ledgers : Ledgers) (txs : List Tx) :
    (applyTxs c ledgers txs).1 = exec (txStep c) ledgers txs := by
  induction txs generalizing ledgers with
  | nil => rfl
  | cons tx txs ih =>
    rw [exec_cons, applyTxs]
    cases h : applyTx c ledgers tx with
    | ok out =>
      have hstep : txStep c ledgers tx = .ok out.1 := by rw [txStep, h]; rfl
      rw [advance_of_ok (txStep c) hstep]
      exact ih out.1
    | error e =>
      have hstep : txStep c ledgers tx = .error e := by rw [txStep, h]; rfl
      rw [advance_of_error (txStep c) hstep]
      exact ih ledgers

variable {c}

lemma txStep_ok {ledgers ledgers' : Ledgers} {tx : Tx} (h : txStep c ledgers tx = .ok ledgers') :
    ∃ l l' r, ledgers tx.namespaceId = some l ∧ l.transition c tx.envelope = .ok (l', r) ∧
      ledgers' = Function.update ledgers tx.namespaceId (some l') := by
  unfold txStep at h
  cases ha : applyTx c ledgers tx with
  | error e => rw [ha] at h; cases h
  | ok out =>
    rw [ha] at h
    cases h
    unfold applyTx at ha
    simp only [bind_eq_ok, expect_eq_ok, pure_eq_ok] at ha
    obtain ⟨l, hl, ⟨l', r⟩, hr, rfl⟩ := ha
    exact ⟨l, l', r, hl, hr, rfl⟩

lemma txStep_accepts {ledgers : Ledgers} {tx : Tx} {l l' : Ledger} {r : Applied}
    (hl : ledgers tx.namespaceId = some l) (h : l.transition c tx.envelope = .ok (l', r)) :
    txStep c ledgers tx = .ok (Function.update ledgers tx.namespaceId (some l')) := by
  simp [txStep, applyTx, hl, h, expect, bind, Except.bind, pure, Except.pure, Except.map]

lemma applyBlock_eq_ok {s s' : State} {block : Block} {digest : Id} :
    (∃ rs, s.applyBlock c block digest = .ok (s', rs)) ↔
      s.Extends block ∧ s' = s.commit c block digest (exec (txStep c) s.ledgers block.txs) := by
  unfold State.applyBlock
  simp only [bind_eq_ok, require_eq_ok, pure_eq_ok, Prod.mk.injEq, ← applyTxs_fst]
  constructor
  · rintro ⟨rs, -, hext, rfl, -⟩
    exact ⟨hext, rfl⟩
  · rintro ⟨hext, rfl⟩
    exact ⟨_, (), hext, rfl, rfl⟩

lemma blockStep_eq_ok {s s' : State} {b : Block × Id} :
    blockStep c s b = .ok s' ↔
      s.Extends b.1 ∧ s' = s.commit c b.1 b.2 (exec (txStep c) s.ledgers b.1.txs) := by
  rw [← applyBlock_eq_ok]
  unfold blockStep
  cases s.applyBlock c b.1 b.2 with
  | error e => simp [Except.map]
  | ok out =>
    simp only [Except.map, Except.ok.injEq]
    constructor
    · rintro rfl
      exact ⟨out.2, rfl⟩
    · rintro ⟨rs, rfl⟩
      rfl

section Sample

def sampleCrypto : Crypto where
  domAcct := 1
  domRec := 2
  domNode := 3
  hash domain inputs := inputs.foldl (fun acc x => (31 * acc + x) % 1000003) (domain + 17)
  sha256 chunks := chunks.foldl (fun acc chunk => match chunk with
    | .text s => (37 * acc + s.length) % 1000003
    | .word n => (37 * acc + n) % 1000003) 1
  fromLeBytesModOrder digest := digest
  decodeProof bytes := bytes.head?
  verify _ proof _ := proof == 1
  keyValid _ := true
  signed pubkey _ signature := signature == pubkey

def sampleInstance : Instance := ⟨2, 2⟩

def sampleProof : Bytes := 1 :: List.replicate 127 0

end Sample

end Peal.Links
