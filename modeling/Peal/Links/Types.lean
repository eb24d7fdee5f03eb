import Peal.Library.Fallible

namespace Peal.Links
open Peal.Fallible

/-! # Wire types of the ledger and the cryptography it calls -/

/-- A field element, by its canonical representative. -/
abbrev Fr := Nat

abbrev Namespace := Nat

abbrev Bytes := List Nat

abbrev Text := List Char

inductive Error where
  | wire (reason : String)
  | nonCanonicalField
  | invalidPoint
  | invalidProof
  | unknownAccount
  | accountExists
  | staleCommitment
  | rootNotRecent
  | receiptLogFull
  | wrongNamespace
  | badSignature
  | wallet (reason : String)
  | storage (reason : String)
  deriving DecidableEq, Repr

/-- What a hasher is fed, update by update. -/
inductive Chunk where
  | text (s : String)
  | word (n : Nat)

inductive Circuit where
  | op
  | deposit
  deriving DecidableEq, Repr

/-- The libraries the ledger calls: the field hash and proof system, SHA-256 and ed25519. -/
structure Crypto where
  hash : Nat → List Fr → Fr
  domAcct : Nat
  domRec : Nat
  domNode : Nat
  sha256 : List Chunk → Nat
  fromLeBytesModOrder : Nat → Fr
  decodeProof : Bytes → Option Nat
  verify : Circuit → Nat → List Fr → Bool
  keyValid : Nat → Bool
  signed : Nat → List Nat → Nat → Bool

def PROOF_BYTES : Nat := 128

variable (c : Crypto)

def proofFromBytes (bytes : Bytes) : Except Error Nat := do
  require (bytes.length = PROOF_BYTES)
    (.wire s!"proof must be {PROOF_BYTES} bytes, got {bytes.length}")
  expect (c.decodeProof bytes) .invalidPoint

def ENVELOPE_MAGIC : Nat := 0x504c4b30
def ENVELOPE_REGISTER : Nat := 1
def ENVELOPE_OP : Nat := 2

def accountId (namespaceId pubkey : Nat) : Fr :=
  c.fromLeBytesModOrder
    (c.sha256 [.text "peal-links/v1/account-id", .word 0, .word namespaceId, .word pubkey])

structure RegisterEnvelope where
  namespaceId : Namespace
  pubkey : Nat
  randomness : Fr
  signature : Nat
  deriving DecidableEq, Repr

namespace RegisterEnvelope

def signingBytes (namespaceId pubkey : Nat) (randomness : Fr) : List Nat :=
  [ENVELOPE_MAGIC, ENVELOPE_REGISTER, namespaceId, pubkey, randomness]

def verify (env : RegisterEnvelope) (expectedNamespace : Namespace) : Except Error Fr := do
  require (env.namespaceId = expectedNamespace) .wrongNamespace
  require (c.keyValid env.pubkey = true) .badSignature
  require (c.signed env.pubkey (signingBytes env.namespaceId env.pubkey env.randomness)
    env.signature = true) .badSignature
  return accountId c env.namespaceId env.pubkey

end RegisterEnvelope

structure OpEnvelope where
  namespaceId : Namespace
  circuitId : Nat
  account : Fr
  com : Fr
  comNew : Fr
  receipt : Fr
  root : Fr
  proof : Bytes
  pubkey : Nat
  signature : Nat
  deriving DecidableEq, Repr

namespace OpEnvelope

def signingBytes (env : OpEnvelope) : List Nat :=
  [ENVELOPE_MAGIC, ENVELOPE_OP, env.namespaceId, env.circuitId, env.account, env.com, env.comNew,
    env.receipt, env.root] ++ env.proof ++ [env.pubkey]

def verifySignature (env : OpEnvelope) : Except Error Unit := do
  require (c.keyValid env.pubkey = true) .badSignature
  require (accountId c env.namespaceId env.pubkey = env.account) .badSignature
  require (c.signed env.pubkey env.signingBytes env.signature = true) .badSignature

end OpEnvelope

structure DepositIntent where
  namespaceId : Namespace
  circuitId : Nat
  amount : Nat
  receipt : Fr
  proof : Bytes
  deriving DecidableEq, Repr

structure MintEnvelope where
  intent : DepositIntent
  depositId : Text
  deriving DecidableEq, Repr

inductive Envelope where
  | register (env : RegisterEnvelope)
  | op (env : OpEnvelope)
  | mint (env : MintEnvelope)
  deriving DecidableEq, Repr

/-- The sender every mint receipt carries. -/
def mintSender : Fr := c.fromLeBytesModOrder (c.sha256 [.text "peal-links/v1/mint-sender"])

end Peal.Links
