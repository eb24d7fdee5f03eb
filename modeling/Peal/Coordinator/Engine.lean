import Peal.Coordinator.Rounds
import Peal.Actions.Commitment
import Peal.Library.Runs

namespace Peal.Coordinator
open Peal.Fallible Peal.Runs Peal.Sha256 Peal.PromotedTree
open Peal.Actions (utf8 parent)
open Peal.Links (hexEncode hexDecode)

/-! # The condition engine

Requests seal ciphertexts, bind intents to them and bring shares; the engine freezes a due condition into batches,
finalizes a batch from its shares and publishes the reveal. -/

structure ApiError where
  status : Nat
  code : String
  message : String
  deriving DecidableEq, Repr

/-- The error of a `/v0` request, which carries no code. -/
def badRequest (message : String) : ApiError := ⟨400, "", message⟩

def internal : ApiError := ⟨500, "INTERNAL", "internal error"⟩

def Status.word : Status → String
  | .pending => "pending"
  | .frozen => "frozen"
  | .revealed => "revealed"
  | .stalled => "stalled"

structure SubmitIntent where
  protocolVersion : Nat
  intentId : Text
  encryptionKeyId : Text
  ciphertextHash : Text
  nonce : Text
  createdAt : Int
  expiresAt : Int
  pseudonymousSigner : Text
  executionDomain : Nat
  signature : Text
  conditionId : Text
  idempotencyKey : Option Text
  deriving DecidableEq, Repr

/-- The configuration of the engine and the libraries it calls: the typed-data signatures of intents and
authorizations, and the parser and verifier of shares. -/
structure EngineConfig extends Config where
  intentSigned : SubmitIntent → Bool
  authorizationSigned : Text → Text → Text → Bool
  shareIndex : Bytes → Except String Nat
  verifyShare : Text → List Bytes → Bytes → Bool
  executorIdentity : Text
  revealTimeoutSecs : Int

variable (cfg : EngineConfig)

/-! ### Ciphertexts -/

def MAX_SEALED_BLOB : Nat := MAX_PAYLOAD_BYTES + 4096

/-- `UPDATE ciphertexts SET code` of a row that has none; a taken code violates the unique index. -/
def backfillCode (db : Database) (hash code : Text) : Except ApiError Database :=
  if db.ciphertexts.any (fun c => c.ctHash = hash && c.code = none) then do
    require (¬db.ciphertexts.any fun c => c.code = some code) internal
    return { db with ciphertexts := db.ciphertexts.map fun c =>
      if c.ctHash = hash ∧ c.code = none then { c with code := some code } else c }
  else .ok db

def parseWire (blob : Bytes) : Except ApiError Bytes :=
  match cfg.ctWire blob with
  | .ok wire => .ok wire
  | .error e => .error (badRequest s!"invalid sealed ciphertext: {e}")

/-- `submit_ciphertext`; `code` and `backfill` are the share codes drawn. -/
def submitCiphertext (db : Database) (conditionId sealedBlobB64 : Text) (now : Int) (code backfill : Text) :
    Except ApiError (Database × Text × Text) := do
  require ((sealedBlobB64.map Char.utf8Size).sum ≤ MAX_SEALED_BLOB * 4 / 3 + 8) (badRequest "sealed blob too large")
  let blob ← expect (cfg.decode64 sealedBlobB64) (badRequest "sealed_blob_b64 is not valid base64")
  require (blob.length ≤ MAX_SEALED_BLOB) (badRequest "sealed blob too large")
  let wire ← parseWire cfg blob
  let condition ← expect (db.conditions conditionId) ⟨404, "", "unknown condition"⟩
  require (condition.status = .pending)
    (badRequest s!"condition is {condition.status.word}; sealing is closed")
  let db ← backfillCode (insertSeal db (ctHash wire) conditionId blob now code) (ctHash wire) backfill
  let code ← expect ((db.seal? (ctHash wire)).bind Ciphertext.code) internal
  return (db, ctHash wire, code)

/-! ### Intents -/

def isHexDigit (c : Char) : Bool := c.isDigit || ('a' ≤ c && c ≤ 'f') || ('A' ≤ c && c ≤ 'F')

def isHex64 (s : Text) : Bool := s.length = 64 && s.all fun c => isHexDigit c && !c.isUpper

def isAddress (s : Text) : Bool := s.length = 42 && s.take 2 = ['0', 'x'] && (s.drop 2).all isHexDigit

def isUrlSafe (s : Text) (min max : Nat) : Bool :=
  min ≤ s.length && s.length ≤ max && s.all fun c => c.isAlphanum || c = '_' || c = '-'

/-- The edge set, identical to state.ts. -/
def nextStates : IntentState → List IntentState
  | .draft => [.sealed, .cancelled]
  | .sealed => [.submitted, .cancelled, .expired]
  | .submitted => [.validated, .failed, .cancelled, .expired]
  | .validated => [.batched, .failed, .cancelled, .expired]
  | .batched => [.orderCommitted, .failed, .expired]
  | .orderCommitted => [.collectingShares, .failed]
  | .collectingShares => [.thresholdReached, .failed, .expired]
  | .thresholdReached => [.revealed, .failed]
  | .revealed => [.quoting, .failed, .expired, .cancelled]
  | .quoting => [.quoteValidated, .failed, .expired, .cancelled]
  | .quoteValidated => [.authorizationRequired, .failed, .expired, .cancelled]
  | .authorizationRequired => [.authorized, .cancelled, .expired]
  | .authorized => [.submittedForExecution, .cancelled, .failed, .expired]
  | .submittedForExecution => [.confirmed, .failed]
  | .confirmed => [.settled, .failed]
  | .settled | .failed | .expired | .cancelled => []

def canTransition (from_ to_ : IntentState) : Bool := (nextStates from_).contains to_

structure IntentAccepted where
  intentId : Text
  state : IntentState
  duplicate : Bool
  deriving DecidableEq, Repr

def conditionClosed (status : Status) : ApiError :=
  ⟨409, "CONDITION_CLOSED", s!"condition is {status.word}; intents can only join a pending condition"⟩

/-- What is checked of an intent before the lock. -/
def checkIntent (req : SubmitIntent) (now : Int) : Except ApiError Unit := do
  require (req.protocolVersion = 1) ⟨400, "UNSUPPORTED_VERSION", "protocolVersion must be 1"⟩
  require (isUrlSafe req.intentId 8 64) ⟨400, "BAD_INTENT_ID", "intentId must be 8-64 url-safe chars"⟩
  require (isUrlSafe req.nonce 8 64) ⟨400, "BAD_NONCE", "nonce must be 8-64 url-safe chars"⟩
  require (isHex64 req.ciphertextHash) ⟨400, "BAD_CIPHERTEXT_HASH", "ciphertextHash must be 32 lowercase hex bytes"⟩
  require (isHex64 req.encryptionKeyId) ⟨400, "BAD_KEY_ID", "encryptionKeyId must be 32 lowercase hex bytes"⟩
  require (isAddress req.pseudonymousSigner) ⟨400, "BAD_SIGNER", "pseudonymousSigner must be an address"⟩
  require (req.executionDomain ≠ 0) ⟨400, "BAD_DOMAIN", "executionDomain must be a chain id"⟩
  require (now < req.expiresAt) ⟨400, "EXPIRED", "intent has already expired"⟩
  require (req.createdAt ≤ now + 300) ⟨400, "BAD_CREATED_AT", "createdAt is in the future"⟩
  require (cfg.intentSigned req) ⟨400, "BAD_SIGNATURE", "signature does not verify for pseudonymousSigner"⟩

def submitIntent (db : Database) (req : SubmitIntent) (now : Int) : Except ApiError (Database × IntentAccepted) := do
  checkIntent cfg req now
  let signer := req.pseudonymousSigner.map Char.toLower
  match db.intents.find? fun it => it.signer = signer ∧ it.idempotencyKey ≠ none ∧ it.idempotencyKey = req.idempotencyKey with
  | some existing => return (db, ⟨existing.id, existing.state, true⟩)
  | none =>
    require ((db.rowsOf req.conditionId).any fun c => c.ctHash = req.ciphertextHash)
      ⟨400, "UNKNOWN_CIPHERTEXT", "no ciphertext with that hash under that condition"⟩
    let condition ← expect (db.conditions req.conditionId) ⟨404, "UNKNOWN_CONDITION", "no such condition"⟩
    require (condition.status = .pending) (conditionClosed condition.status)
    require (¬db.intents.any fun it => it.id = req.intentId || (it.signer = signer && it.nonce = req.nonce))
      ⟨409, "REPLAY", "an intent with this id or nonce already exists for this signer"⟩
    let row : Intent := ⟨req.intentId, req.protocolVersion, req.encryptionKeyId, req.ciphertextHash, req.nonce, signer,
      req.executionDomain, req.signature, req.createdAt, req.expiresAt, req.conditionId, .submitted, none,
      req.idempotencyKey, now⟩
    return ({ db with intents := db.intents ++ [row] }, ⟨req.intentId, .submitted, false⟩)

/-- `post_authorization`: the one move of an intent's state that a request makes. -/
def postAuthorization (db : Database) (id authorizationHash signature : Text) (now : Int) :
    Except ApiError Database := do
  require (isHex64 authorizationHash) ⟨400, "BAD_AUTH_HASH", "authorizationHash must be 32 lowercase hex bytes"⟩
  let intent ← expect (db.intents.find? fun it => it.id = id) ⟨404, "UNKNOWN_INTENT", "no such intent"⟩
  require (cfg.authorizationSigned authorizationHash signature intent.signer)
    ⟨400, "BAD_SIGNATURE", "authorization signature does not verify for this intent's signer"⟩
  require (now < intent.expiresAt) ⟨409, "EXPIRED", "intent has expired"⟩
  require (canTransition intent.state .authorized) ⟨409, "ILLEGAL_TRANSITION", "cannot authorize from this state"⟩
  return { db with intents := db.intents.map fun it =>
    if it.id = id then { it with state := .authorized, authorizationHash := some authorizationHash } else it }

/-- Every intent under the condition that may make the move makes it. -/
def advanceConditionIntents (intents : List Intent) (conditionId : Text) (to_ : IntentState) : List Intent :=
  intents.map fun it => if it.conditionId = conditionId ∧ canTransition it.state to_ then { it with state := to_ } else it

/-! ### Freezing -/

def orderingLeaf (intentId : Text) (ctHash : Bytes) : Bytes := sha256 (utf8 intentId ++ 0 :: ctHash)

/-- Root over leaves in position order; no leaves hash to the hash of nothing. -/
def merkleRoot (leaves : List Bytes) : Bytes := (rootOf parent leaves).getD (sha256 [])

/-- What `freeze_condition` holds between its two lock scopes: the rows it read, sorted, and the dummies it sealed. -/
structure Plan where
  conditionId : Text
  committee : Committee
  real : List (Text × Bytes)
  dummies : List (Text × Bytes)

def Plan.ordered (p : Plan) : List Text := (p.real ++ p.dummies).map Prod.fst

def byHash (rows : List (Text × Bytes)) : List (Text × Bytes) := rows.insertionSort fun a b => a.1 ≤ b.1

/-- How many slots a condition is padded to. -/
def paddedSize (b rows : Nat) : Nat := max ((rows + b - 1) / b) 1 * b

/-- The first lock scope of a freeze and the sealing after it; `drawn` are the wire bytes of the dummies. -/
def freezeRead (db : Database) (conditionId : Text) (drawn : List Bytes) : Except Unit Plan := do
  let condition ← expect (db.conditions conditionId) ()
  require (condition.status = .pending) ()
  let committee ← expect (db.committee? condition.committeeId) ()
  let rows := db.rowsOf conditionId
  require (0 < committee.b ∧ rows.length + drawn.length = paddedSize committee.b rows.length) ()
  return ⟨conditionId, committee, byHash (rows.map fun c => (c.ctHash, c.sealedBlob)),
    byHash (drawn.map fun wire => (ctHash wire, wire))⟩

/-- `UPDATE ciphertexts SET position` for each hash in turn. -/
def assignPositions (rows : List Ciphertext) (ordered : List Text) : List Ciphertext :=
  ordered.zipIdx.foldl (fun rows slot =>
    rows.map fun c => if c.ctHash = slot.1 then { c with position := some slot.2 } else c) rows

/-- The intent a ciphertext's leaf names: the first one bound to it, or the empty id. -/
def intentOf (intents : List Intent) (ctHash : Text) : Text :=
  ((intents.find? fun it => it.ciphertextHash = ctHash).map Intent.id).getD []

/-- What a freeze has committed a condition to; the database does not keep it as such. -/
structure Frozen where
  size : Nat
  entries : List (Text × Text)
  firstBatch : Nat
  frozenAt : Int
  committedAt : Nat → Int
  committeeId : Text
  committer : Text

namespace Frozen

def batches (f : Frozen) : Nat := f.entries.length / f.size

/-- The intents and ciphertexts of one batch, in position order. -/
def batchEntries (f : Frozen) (i : Nat) : List (Text × Text) := (f.entries.drop (i * f.size)).take f.size

def leaves (f : Frozen) (i : Nat) : List Bytes :=
  (f.batchEntries i).map fun e => orderingLeaf e.1 ((hexDecode e.2).getD [])

def orderingRoot (f : Frozen) (i : Nat) : Text := hexEncode (merkleRoot (f.leaves i))

def commitment (f : Frozen) (conditionId : Text) (i : Nat) : BatchCommitment :=
  ⟨f.firstBatch + i, conditionId, f.orderingRoot i, (f.batchEntries i).length, f.committeeId, f.committer, f.committedAt i⟩

def batch (f : Frozen) (conditionId : Text) (i : Nat) : Batch := ⟨f.firstBatch + i, conditionId, i, f.frozenAt, none⟩

end Frozen

/-- What the plan commits its condition to, the intents being those of the tables. -/
def Plan.frozen (p : Plan) (db : Database) (frozenAt : Int) (committedAt : Nat → Int) : Frozen where
  size := p.committee.b
  entries := p.ordered.map fun hash => (intentOf db.intents hash, hash)
  firstBatch := db.batches.length + 1
  frozenAt := frozenAt
  committedAt := committedAt
  committeeId := p.committee.id
  committer := cfg.executorIdentity.map Char.toLower

/-- `INSERT OR IGNORE` under the batch id. -/
def recordCommitment (rows : List BatchCommitment) (row : BatchCommitment) : List BatchCommitment :=
  if rows.any fun r => r.batchId = row.batchId then rows else rows ++ [row]

/-- The freeze transaction; `frozenAt` and `committedAt` are the clock at its start and at each commitment. -/
def freezeWrite (db : Database) (p : Plan) (frozenAt : Int) (committedAt : Nat → Int) :
    Except Unit (Database × Frozen) := do
  require ((p.dummies.map Prod.fst).Nodup ∧ ∀ d ∈ p.dummies, db.seal? d.1 = none) ()
  let rows := db.ciphertexts ++ p.dummies.map fun d => ⟨d.1, p.conditionId, d.2, true, none, frozenAt, none⟩
  let f := p.frozen cfg db frozenAt committedAt
  let indices := List.range f.batches
  let intents := [IntentState.validated, .batched, .orderCommitted].foldl
    (fun intents to_ => advanceConditionIntents intents p.conditionId to_) db.intents
  return ({ db.setStatus p.conditionId .frozen with
    ciphertexts := assignPositions rows p.ordered
    batches := db.batches ++ indices.map (f.batch p.conditionId)
    batchCommitments := indices.foldl (fun rows i => recordCommitment rows (f.commitment p.conditionId i))
      db.batchCommitments
    intents := intents }, f)

/-! ### Shares -/

/-- A batch's ciphertexts, in position order. -/
def batchCts (db : Database) (batch : Batch) (b : Nat) : List Ciphertext :=
  ((db.rowsOf batch.conditionId).filter fun c =>
    c.position.any fun p => batch.batchIndex * b ≤ p && p < batch.batchIndex * b + b).insertionSort
      fun c d => c.position.getD 0 ≤ d.position.getD 0

/-- A `submit_share` between its two lock scopes, its share checked. -/
structure Submission where
  batchId : Nat
  operatorId : Nat
  shareBlob : Bytes
  verified : Bool
  deriving DecidableEq, Repr

/-- The party index of a share. -/
def parseShare (blob : Bytes) : Except ApiError Nat :=
  match cfg.shareIndex blob with
  | .ok index => .ok index
  | .error e => .error (badRequest s!"invalid share: {e}")

/-- What `submit_share` reads and checks; a row already stored under the batch and the operator is the answer. -/
def readShare (db : Database) (batchId operatorId : Nat) (shareB64 : Text) :
    Except ApiError (Submission × Option Share) := do
  let blob ← expect (cfg.decode64 shareB64) (badRequest "share_b64 is not valid base64")
  let index ← parseShare cfg blob
  require (index = operatorId) (badRequest "share party index does not match operator_id")
  let batch ← expect (db.batches.find? fun x => x.id = batchId ∧ x.finalizedAt = none)
    ⟨404, "", "unknown or already finalized batch"⟩
  let condition ← expect (db.conditions batch.conditionId) internal
  let committee ← expect (db.committee? condition.committeeId) internal
  let blobs := (batchCts db batch committee.b).map Ciphertext.sealedBlob
  return (⟨batchId, operatorId, blob, cfg.verifyShare committee.id blobs blob⟩,
    db.shares.find? fun x => x.batchId = batchId ∧ x.operatorId = operatorId)

/-- `INSERT OR IGNORE` under the batch and the operator. -/
def insertShare (db : Database) (x : Submission) (now : Int) : Database :=
  if db.shares.any fun y => y.batchId = x.batchId && y.operatorId = x.operatorId then db
  else { db with shares := db.shares ++ [⟨x.batchId, x.operatorId, x.shareBlob, x.verified, now⟩] }

/-- `get_work`: the unfinalized batches that have no row of the operator. -/
def getWork (db : Database) (operatorId : Nat) : List Batch :=
  db.batches.filter fun x => x.finalizedAt = none ∧
    ¬db.shares.any fun y => y.batchId = x.id && y.operatorId = operatorId

/-! ### Finalization and reveal -/

def verifiedShares (db : Database) (batchId : Nat) : List Share :=
  db.shares.filter fun x => x.batchId = batchId ∧ x.verified

/-- The shares `finalize_batch` combines. -/
def combinedShares (db : Database) (batchId t : Nat) : List Share :=
  ((verifiedShares db batchId).insertionSort fun x y => x.submittedAt ≤ y.submittedAt).take t

/-- The committee of a batch, through its condition. -/
def batchCommittee (db : Database) (batch : Batch) : Option Committee :=
  (db.conditions batch.conditionId).bind fun c => db.committee? c.committeeId

/-- The batches `finalize_ready` takes up. -/
def ready (db : Database) : List Nat :=
  (db.batches.filter fun x => x.finalizedAt = none ∧
    (batchCommittee db x).any fun k => k.t ≤ (verifiedShares db x.id).length).map Batch.id

/-- The first of the two statements a finalization ends with. -/
def markFinalized (db : Database) (batchId : Nat) (now : Int) : Database :=
  { db with batches := db.batches.map fun x => if x.id = batchId then { x with finalizedAt := some now } else x }

/-- The slots stored for a batch; their positions are filled in when the reveal is built. -/
def recoveredSlots (cts : List Ciphertext) (recovered : List (Bool × Bytes)) : List RevealSlot :=
  cts.zipWith (fun c r => ⟨0, c.ctHash, c.isDummy, r.1, r.2⟩) recovered

/-- `finalize_batch`; `recovered` is what the cryptography recovers, a verdict and a payload for each ciphertext. -/
def finalizeBatch (db : Database) (batchId : Nat) (recovered : List (Bool × Bytes)) (now : Int) : Except Unit Database := do
  require (batchId ∈ ready db) ()
  let batch ← expect (db.batches.find? fun x => x.id = batchId) ()
  let committee ← expect (batchCommittee db batch) ()
  let cts := batchCts db batch committee.b
  require (recovered.length = cts.length) ()
  return { markFinalized db batchId now with batchSlots := Function.update db.batchSlots batchId (some (recoveredSlots cts recovered)) }

def revealLeaf (position : Nat) (payload : Bytes) : Bytes := sha256 (Peal.Links.toLeBytes 4 position ++ payload)

/-- The slots of a condition's batches, in batch order. -/
def slotsOf (db : Database) (conditionId : Text) : List RevealSlot :=
  ((db.batches.filter fun x => x.conditionId = conditionId).insertionSort fun x y => x.batchIndex ≤ y.batchIndex).flatMap
    fun x => (db.batchSlots x.id).getD []

/-- The reveal of a condition whose batches are all marked finalized. -/
def assembleReveal (db : Database) (conditionId : Text) (now : Int) : Except Unit Reveal := do
  let condition ← expect (db.conditions conditionId) ()
  let batches := db.batches.filter fun x => x.conditionId = conditionId
  require ((condition.status = .frozen ∨ condition.status = .stalled) ∧ batches ≠ [] ∧
    ∀ x ∈ batches, x.finalizedAt ≠ none) ()
  let slots ← (slotsOf db conditionId).mapM fun slot => do
    let position ← expect ((db.seal? slot.ctHash).bind Ciphertext.position) ()
    return { slot with position }
  let slots := slots.insertionSort fun x y => x.position ≤ y.position
  let root := merkleRoot (slots.map fun slot => revealLeaf slot.position slot.payload)
  return ⟨now, slots, hexEncode root⟩

/-- The first of the two statements a reveal ends with. -/
def storeReveal (db : Database) (conditionId : Text) (reveal : Reveal) : Database :=
  { db with reveals := Function.update db.reveals conditionId (some reveal) }

def buildReveal (db : Database) (conditionId : Text) (now : Int) : Except Unit Database := do
  let reveal ← assembleReveal db conditionId now
  return (storeReveal db conditionId reveal).setStatus conditionId .revealed

def markStalled (db : Database) (now : Int) : Database :=
  { db with conditions := fun id => (db.conditions id).map fun c =>
      if c.status = .frozen ∧ db.batches.any (fun x => x.conditionId = id && x.finalizedAt = none &&
          x.frozenAt ≤ now - cfg.revealTimeoutSecs) then { c with status := .stalled } else c }

/-! ### The system -/

/-- Whether the engine takes a pending condition up: its time has come, or the head of its chain has. -/
def Kind.due (kind : Kind) (now head : Int) : Prop :=
  match kind with
  | .atTime firesAt => firesAt ≤ now
  | .atBlock _ height => height ≤ head

instance (kind : Kind) (now head : Int) : Decidable (kind.due now head) := by
  cases kind <;> exact inferInstanceAs (Decidable (_ ≤ _))

/-- The coordinator's tables, what the engine and the share requests hold between two lock scopes, and three
histories: the ciphertexts accepted under each condition, the valid shares brought to their answer, and what each
condition was frozen to. -/
structure Engine where
  db : Database
  freezing : Option Plan
  submissions : List Submission
  accepted : List (Text × Text)
  completed : List (Nat × Nat)
  frozen : Text → Option Frozen

namespace Engine

def start : Engine := ⟨.empty, none, [], [], [], fun _ => none⟩

inductive Event where
  | registerCommittee (row : Committee)
  | createCondition (id : Text) (row : Condition)
  | submitCiphertext (conditionId sealedBlobB64 : Text) (now : Int) (code backfill : Text)
  | createSeal (roundId ciphertextB64 : Text) (now : Int) (code : Text)
  | submitIntent (req : SubmitIntent) (now : Int)
  | postAuthorization (id authorizationHash signature : Text) (now : Int)
  | freezeRead (conditionId : Text) (now head : Int) (drawn : List Bytes)
  | freezeWrite (frozenAt : Int) (committedAt : Nat → Int)
  | shareRead (batchId operatorId : Nat) (shareB64 : Text)
  | shareWrite (i : Nat) (now : Int)
  | finalizeBatch (batchId : Nat) (recovered : List (Bool × Bytes)) (now : Int)
  | buildReveal (conditionId : Text) (now : Int)
  | markStalled (now : Int)
  | crash
  | finalizeTorn (batchId : Nat) (now : Int)
  | revealTorn (conditionId : Text) (now : Int)

/-- The answer to a share, valid or not. -/
def complete (s : Engine) (x : Submission) : Engine :=
  if x.verified then { s with completed := s.completed ++ [(x.batchId, x.operatorId)] } else s

/-- What a crash leaves. -/
def restart (s : Engine) (db : Database) : Engine := { s with db, freezing := none, submissions := [] }

/-- One event; the error says that it has no effect. A finalization and a reveal that are torn end in a crash between
their two statements. -/
def step (s : Engine) : Event → Except Unit Engine
  | .registerCommittee row => do
    require (s.db.committee? row.id = none) ()
    return { s with db := { s.db with committees := s.db.committees ++ [row] } }
  | .createCondition id row => do
    require (s.db.conditions id = none ∧ row.status = .pending) ()
    return { s with db := s.db.insertCondition id row }
  | .submitCiphertext conditionId sealedBlobB64 now code backfill =>
    match submitCiphertext cfg s.db conditionId sealedBlobB64 now code backfill with
    | .ok (db, hash, _) => .ok { s with db, accepted := s.accepted ++ [(conditionId, hash)] }
    | .error _ => .error ()
  | .createSeal roundId ciphertextB64 now code =>
    match createSeal cfg.toConfig s.db roundId ciphertextB64 now code with
    | .ok (db, hash, _) => .ok { s with db, accepted := s.accepted ++ [(roundId, hash)] }
    | .error _ => .error ()
  | .submitIntent req now =>
    match submitIntent cfg s.db req now with
    | .ok (db, _) => .ok { s with db }
    | .error _ => .error ()
  | .postAuthorization id authorizationHash signature now =>
    match postAuthorization cfg s.db id authorizationHash signature now with
    | .ok db => .ok { s with db }
    | .error _ => .error ()
  | .freezeRead conditionId now head drawn => do
    require (s.freezing.isNone) ()
    let condition ← expect (s.db.conditions conditionId) ()
    require (condition.kind.due now head) ()
    let p ← freezeRead s.db conditionId drawn
    return { s with freezing := some p }
  | .freezeWrite frozenAt committedAt => do
    let p ← expect s.freezing ()
    match freezeWrite cfg s.db p frozenAt committedAt with
    | .ok (db, f) => return { s with db, freezing := none, frozen := Function.update s.frozen p.conditionId (some f) }
    | .error _ => return { s with freezing := none }
  | .shareRead batchId operatorId shareB64 =>
    match readShare cfg s.db batchId operatorId shareB64 with
    | .ok (x, some _) => .ok (s.complete x)
    | .ok (x, none) => .ok { s with submissions := s.submissions ++ [x] }
    | .error _ => .error ()
  | .shareWrite i now => do
    let x ← expect s.submissions[i]? ()
    return { s with db := insertShare s.db x now, submissions := s.submissions.eraseIdx i }.complete x
  | .finalizeBatch batchId recovered now => do
    require (s.freezing.isNone) ()
    let db ← finalizeBatch s.db batchId recovered now
    return { s with db }
  | .buildReveal conditionId now => do
    require (s.freezing.isNone) ()
    let db ← buildReveal s.db conditionId now
    return { s with db }
  | .markStalled now => do
    require (s.freezing.isNone) ()
    return { s with db := markStalled cfg s.db now }
  | .crash => .ok (s.restart s.db)
  | .finalizeTorn batchId now => do
    require (s.freezing.isNone ∧ batchId ∈ ready s.db) ()
    return s.restart (markFinalized s.db batchId now)
  | .revealTorn conditionId now => do
    require (s.freezing.isNone) ()
    let reveal ← assembleReveal s.db conditionId now
    return s.restart (storeReveal s.db conditionId reveal)

end Engine

/-! A coordinator small enough to run: batches of one slot, and shares of two bytes, the operator and a verdict. -/

def sampleEngine : EngineConfig where
  rpcChains := []
  currencies := []
  roundJsonBytes _ := []
  termsJsonBytes _ _ := []
  decode64 text := [("AQ==".toList, [1]), ("Ag==".toList, [2]), ("AQA=".toList, [1, 0]), ("AQE=".toList, [1, 1]),
    ("AgE=".toList, [2, 1])].lookup text
  encodeUrl bytes := bytes.map Char.ofNat
  ctWire blob := .ok blob
  intentSigned _ := true
  authorizationSigned _ _ _ := true
  shareIndex blob := .ok (blob.headD 0)
  verifyShare _ _ blob := blob[1]? = some 1
  executorIdentity := "0xA1".toList
  revealTimeoutSecs := 600

def sampleCommittee (t b : Nat) : Committee := ⟨['k'], 2, t, b, 0⟩

def sampleCondition : Condition := ⟨['k'], .atTime 100, .pending, none, none, none, none, 0⟩

/-- A round and a committee for it. -/
def opened (t b : Nat) : List Engine.Event :=
  [.registerCommittee (sampleCommittee t b), .createCondition ['r'] sampleCondition]

end Peal.Coordinator
