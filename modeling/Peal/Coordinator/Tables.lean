import Peal.Library.Fallible
import Mathlib.Data.Char
import Mathlib.Data.List.Lex
import Mathlib.Logic.Function.Basic

namespace Peal.Coordinator

/-! # The coordinator's tables -/

abbrev Text := List Char

abbrev Bytes := List Nat

inductive Status where
  | pending
  | frozen
  | revealed
  | stalled
  deriving DecidableEq, Repr

/-- `kind` with the columns that go with it. -/
inductive Kind where
  | atTime (firesAt : Int)
  | atBlock (chainId height : Int)
  deriving DecidableEq, Repr

structure Committee where
  id : Text
  n : Nat
  t : Nat
  b : Nat
  createdAt : Int
  deriving DecidableEq, Repr

structure Condition where
  committeeId : Text
  kind : Kind
  status : Status
  tag : Option Text
  title : Option Text
  description : Option Text
  imageUrl : Option Text
  createdAt : Int
  deriving DecidableEq, Repr

structure Ciphertext where
  ctHash : Text
  conditionId : Text
  sealedBlob : Bytes
  isDummy : Bool
  position : Option Nat
  createdAt : Int
  code : Option Text
  deriving DecidableEq, Repr

/-- The rules stored beside a round. -/
structure Rules where
  currency : Text
  decimals : Int
  reserveMinor : Option Int
  maximumMinor : Option Int
  contactPublicKey : Option Text
  deriving DecidableEq, Repr

structure Batch where
  id : Nat
  conditionId : Text
  batchIndex : Nat
  frozenAt : Int
  finalizedAt : Option Int
  deriving DecidableEq, Repr

structure Share where
  batchId : Nat
  operatorId : Nat
  shareBlob : Bytes
  verified : Bool
  submittedAt : Int
  deriving DecidableEq, Repr

structure BatchCommitment where
  batchId : Nat
  conditionId : Text
  orderingRoot : Text
  batchSize : Nat
  encryptionKeyId : Text
  committer : Text
  committedAt : Int
  deriving DecidableEq, Repr

/-- Mirrors `STATES` in state.ts. -/
inductive IntentState where
  | draft
  | sealed
  | submitted
  | validated
  | batched
  | orderCommitted
  | collectingShares
  | thresholdReached
  | revealed
  | quoting
  | quoteValidated
  | authorizationRequired
  | authorized
  | submittedForExecution
  | confirmed
  | settled
  | failed
  | expired
  | cancelled
  deriving DecidableEq, Repr

structure Intent where
  id : Text
  protocolVersion : Nat
  encryptionKeyId : Text
  ciphertextHash : Text
  nonce : Text
  signer : Text
  executionDomain : Nat
  signature : Text
  createdAt : Int
  expiresAt : Int
  conditionId : Text
  state : IntentState
  authorizationHash : Option Text
  idempotencyKey : Option Text
  submittedAt : Int
  deriving DecidableEq, Repr

/-- One revealed slot. -/
structure RevealSlot where
  position : Nat
  ctHash : Text
  isDummy : Bool
  valid : Bool
  payload : Bytes
  deriving DecidableEq, Repr

structure Reveal where
  revealedAt : Int
  payloadsBlob : List RevealSlot
  merkleRoot : Text
  deriving DecidableEq, Repr

/-- Internal status words, as callers see them. -/
inductive PublicStatus where
  | opened
  | closing
  | «open»
  | stalled
  deriving DecidableEq, Repr

def publicStatus : Status → PublicStatus
  | .pending => .open
  | .frozen => .closing
  | .revealed => .opened
  | .stalled => .stalled

structure RoundJson where
  id : Text
  status : PublicStatus
  tag : Option Text
  title : Option Text
  description : Option Text
  imageUrl : Option Text
  kind : Kind
  seals : Option Nat
  slotsIncludingDecoys : Option Nat
  createdAt : Int
  openedAt : Option Int
  deriving DecidableEq, Repr

/-- A row of `idempotency`; `requestHash` is null in rows older than the column. -/
structure IdempotencyRow where
  roundId : Text
  responseJson : RoundJson
  createdAt : Int
  requestHash : Option Text
  deriving DecidableEq, Repr

structure Database where
  committees : List Committee
  conditions : Text → Option Condition
  ciphertexts : List Ciphertext
  batches : List Batch
  shares : List Share
  batchSlots : Nat → Option (List RevealSlot)
  idempotency : Text → Option IdempotencyRow
  auctions : Text → Option Rules
  reveals : Text → Option Reveal
  intents : List Intent
  batchCommitments : List BatchCommitment

namespace Database

def empty : Database where
  committees := []
  conditions _ := none
  ciphertexts := []
  batches := []
  shares := []
  batchSlots _ := none
  idempotency _ := none
  auctions _ := none
  reveals _ := none
  intents := []
  batchCommitments := []

/-- Every row of `ciphertexts` under a condition. -/
def rowsOf (db : Database) (conditionId : Text) : List Ciphertext :=
  db.ciphertexts.filter fun c => c.conditionId = conditionId

def seal? (db : Database) (ctHash : Text) : Option Ciphertext := db.ciphertexts.find? fun c => c.ctHash = ctHash

def committee? (db : Database) (id : Text) : Option Committee := db.committees.find? fun k => k.id = id

def insertCondition (db : Database) (id : Text) (row : Condition) : Database :=
  { db with conditions := Function.update db.conditions id (some row) }

@[simp] lemma insertCondition_conditions (db : Database) (id : Text) (row : Condition) :
    (db.insertCondition id row).conditions = Function.update db.conditions id (some row) := rfl

def setStatus (db : Database) (id : Text) (status : Status) : Database :=
  { db with conditions := Function.update db.conditions id ((db.conditions id).map fun c => { c with status }) }

@[simp] lemma setStatus_conditions (db : Database) (id : Text) (status : Status) :
    (db.setStatus id status).conditions =
      Function.update db.conditions id ((db.conditions id).map fun c => { c with status }) := rfl

end Database

structure Problem where
  status : Nat
  code : String
  detail : String
  field : Option String
  deriving DecidableEq, Repr

namespace Problem

def invalid (code detail : String) (field : Option String) : Problem := ⟨400, code, detail, field⟩

def missing (what : String) : Problem := ⟨404, "not_found", s!"no such {what}", none⟩

def internal : Problem := ⟨500, "internal", "the coordinator could not complete this request", none⟩

end Problem

end Peal.Coordinator
