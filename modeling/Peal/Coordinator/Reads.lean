import Peal.Coordinator.SealProof
import Peal.Live.Board
import Peal.Library.Base64
import Peal.Library.Json

namespace Peal.Coordinator
open Peal.Fallible Peal.Sha256
open Peal.Links (hexEncode)

/-! # The read endpoints

The two generations of the API read one database; `/v0` lists conditions, `/v1` rounds. -/

structure Timing where
  predecryptMs : Option Int
  finalizeMs : Option Int
  deriving DecidableEq, Repr

structure IntentEvent where
  from_ : IntentState
  to_ : IntentState
  code : Option Text
  at_ : Int
  deriving DecidableEq, Repr

structure Counter where
  kind : Text
  day : Text
  count : Nat
  deriving DecidableEq, Repr

/-- The tables with what only the read endpoints use: the ids of `conditions` in row order, some columns, and the tables
of counters and payments. -/
structure Tables extends Database where
  ids : List Text
  paramsBlob : Text → Bytes
  timing : Nat → Timing
  submissionMode : Text → Text
  intentEvents : Text → List IntentEvent
  commitmentSignature : Nat → Option Text
  counters : List Counter
  payments : List Int

namespace Tables

/-- The same tables with other rows in `ciphertexts`. -/
def withSeals (t : Tables) (rows : List Ciphertext) : Tables :=
  { t with toDatabase := { t.toDatabase with ciphertexts := rows } }

def rounds (t : Tables) : List (Text × Condition) :=
  t.ids.filterMap fun id => (t.conditions id).map fun c => (id, c)

end Tables

/-! ### Requests and answers -/

structure ListRounds where
  tag : Option Text
  status : Option Text
  limit : Option Int
  cursor : Option Text
  deriving DecidableEq, Repr

inductive ReadRequest where
  | listConditions
  | getCondition (id : Text)
  | getWork (operator : Nat)
  | getReveal (conditionId : Text)
  | resolveSeal (code : Text)
  | listCommittees
  | getCommittee (id : Text)
  | getStats (windowSecs : Option Int)
  | getActivity (days : Option Int)
  | parameters
  | listRounds (query : ListRounds)
  | getRound (id : Text) (ifNoneMatch : Option Text)
  | listSeals (roundId : Text)
  | getSeal (id : Text)
  | getSealProof (id : Text)
  | getAuction (id : Text)
  | getResults (id : Text)
  | getIntent (id : Text)
  | getIntentEvents (id : Text)
  | getBatchCommitment (batchId : Nat)
  | elsewhere (path : Text)
  deriving DecidableEq, Repr

structure ConditionListed where
  id : Text
  committeeId : Text
  kind : String
  firesAt : Option Int
  status : String
  createdAt : Int
  tag : Option Text
  ciphertextCount : Nat
  realCount : Nat
  deriving DecidableEq, Repr

structure BatchListed where
  batchId : Nat
  batchIndex : Nat
  frozenAt : Int
  finalizedAt : Option Int
  timing : Timing
  verifiedShares : Nat
  totalShares : Nat
  deriving DecidableEq, Repr

structure ConditionDetail where
  listed : ConditionListed
  block : Option (Int × Int)
  batches : List BatchListed
  deriving DecidableEq, Repr

structure WorkBatch where
  batchId : Nat
  conditionId : Text
  b : Nat
  headers : Bytes
  deriving DecidableEq, Repr

structure RevealedBatch where
  batchId : Nat
  batchIndex : Nat
  timing : Timing
  headers : Bytes
  deriving DecidableEq, Repr

/-- A reveal with the ciphertext of each slot. -/
structure RevealDetail where
  conditionId : Text
  revealedAt : Int
  merkleRoot : Text
  slots : List (RevealSlot × Option Bytes)
  shares : List Share
  batches : List RevealedBatch
  deriving DecidableEq, Repr

structure TagRow where
  tag : Text
  conditions : Nat
  ciphertexts : Nat
  revealed : Nat
  firstSeen : Option Int
  lastSeen : Option Int
  recent : Nat
  deriving DecidableEq, Repr

structure Stats where
  conditions : Nat
  revealed : Nat
  pending : Nat
  «sealed» : Nat
  padding : Nat
  windowSecs : Int
  recentConditions : Nat
  recentSealed : Nat
  medianOpenMs : Option Int
  tags : List TagRow
  asOf : Int
  deriving DecidableEq, Repr

/-- `rest` is what comes from the other tables. -/
structure Activity where
  days : Nat
  asOf : Int
  «sealed» : Nat
  decoys : Nat
  series : List Nat
  rest : Json.Value

structure SealListed where
  id : Text
  position : Option Nat
  payload : Option Bytes
  deriving DecidableEq, Repr

/-- The list of a round's seals: none until it opens. -/
inductive SealList where
  | unopened (availableAt : Option Int)
  | opened (data : List SealListed)
  deriving DecidableEq, Repr

structure SealDetail where
  «seal» : SealListed
  roundId : Text
  status : PublicStatus
  deriving DecidableEq, Repr

inductive Answer where
  | conditions (rows : List ConditionListed) (total : Nat)
  | condition (json : ConditionDetail)
  | work (batches : List WorkBatch)
  | reveal (json : RevealDetail)
  | resolved (ctHash conditionId : Text)
  | committees (rows : List Committee)
  | committee (row : Committee) (paramsBlob : Bytes)
  | stats (json : Stats)
  | activity (json : Activity)
  | rounds (data : List RoundJson) (nextCursor : Option Text) (hasMore : Bool)
  | round (json : RoundJson) (etag : Text)
  | notModified
  | seals (json : SealList)
  | «seal» (json : SealDetail)
  | proof (json : SealProof)
  | auction (json : AuctionJson)
  | results (json : ResultsJson)
  | intent (row : Intent) (submissionMode : Text)
  | events (rows : List IntentEvent)
  | commitment (row : BatchCommitment) (signature : Option Text)
  | elsewhere (body : Json.Value)
  | problem (p : Problem)
  | apiError (e : ApiError)

/-- The configuration, the header of a ciphertext as the parser reads it, and what an answer takes from the tables when
they hold no ciphertexts. -/
structure ReadConfig extends Config where
  origin : Text
  ctHeader : Bytes → Option Bytes
  elsewhere : Tables → ReadRequest → Int → Json.Value

variable (cfg : ReadConfig) (t : Tables)

/-! ### `/v0` -/

def Kind.word : Kind → String
  | .atTime _ => "at_time"
  | .atBlock _ _ => "at_block"

def Kind.firesAt : Kind → Option Int
  | .atTime at_ => some at_
  | .atBlock _ _ => none

def Kind.block : Kind → Option (Int × Int)
  | .atTime _ => none
  | .atBlock chainId height => some (chainId, height)

def listCondition (id : Text) (c : Condition) : ConditionListed where
  id := id
  committeeId := c.committeeId
  kind := c.kind.word
  firesAt := c.kind.firesAt
  status := c.status.word
  createdAt := c.createdAt
  tag := c.tag
  ciphertextCount := (t.rowsOf id).length
  realCount := (t.rowsOf id).countP fun x => !x.isDummy

/-- The hundred that `list_conditions` answers with. -/
def Tables.newest : List (Text × Condition) :=
  (t.rounds.insertionSort fun a b => b.2.createdAt ≤ a.2.createdAt).take 100

def listConditions : Answer := .conditions (t.newest.map fun x => listCondition t x.1 x.2) t.rounds.length

def Tables.batchesOf (conditionId : Text) : List Batch :=
  (t.batches.filter fun x => x.conditionId = conditionId).insertionSort fun x y => x.batchIndex ≤ y.batchIndex

def listBatch (x : Batch) : BatchListed where
  batchId := x.id
  batchIndex := x.batchIndex
  frozenAt := x.frozenAt
  finalizedAt := x.finalizedAt
  timing := t.timing x.id
  verifiedShares := (verifiedShares t.toDatabase x.id).length
  totalShares := t.shares.countP fun y => y.batchId = x.id

def getCondition (id : Text) : Except ApiError ConditionDetail := do
  let c ← expect (t.conditions id) ⟨404, "", "unknown condition"⟩
  return ⟨listCondition t id c, c.kind.block, (t.batchesOf id).map (listBatch t)⟩

/-- The packed headers of a batch, in position order. -/
def batchHeaders (batch : Batch) (b : Nat) : Except ApiError Bytes := do
  let headers ← (batchCts t.toDatabase batch b).mapM fun c => expect (cfg.ctHeader c.sealedBlob) internal
  return headers.flatten

def workBatches (operator : Nat) : Except ApiError (List WorkBatch) :=
  ((getWork t.toDatabase operator).filterMap fun x => (batchCommittee t.toDatabase x).map fun k => (x, k)).mapM
    fun x => do
      let headers ← batchHeaders cfg t x.1 x.2.b
      return ⟨x.1.id, x.1.conditionId, x.2.b, headers⟩

def revealedBatch (x : Batch) (b : Nat) : Except ApiError RevealedBatch := do
  let headers ← batchHeaders cfg t x b
  return ⟨x.id, x.batchIndex, t.timing x.id, headers⟩

def getReveal (conditionId : Text) : Except ApiError RevealDetail := do
  let reveal ← expect (t.reveals conditionId) ⟨404, "", "not revealed"⟩
  let slots := reveal.payloadsBlob.map fun slot =>
    (slot, ((t.rowsOf conditionId).find? fun c => c.ctHash = slot.ctHash).map Ciphertext.sealedBlob)
  let shares := (t.shares.filter fun s => t.batches.any fun x => x.id = s.batchId && x.conditionId = conditionId).insertionSort
    fun x y => x.submittedAt ≤ y.submittedAt
  let k ← expect ((t.conditions conditionId).bind fun c => t.committee? c.committeeId) internal
  let batches ← (t.batchesOf conditionId).mapM fun x => revealedBatch cfg t x k.b
  return ⟨conditionId, reveal.revealedAt, reveal.merkleRoot, slots, shares, batches⟩

def isCodeByte (c : Char) : Bool := c.isAlphanum || c = '-' || c = '_'

def resolveSeal (code : Text) : Except ApiError (Text × Text) := do
  require ((code.map Char.utf8Size).sum ≤ 32 ∧ code.all isCodeByte) (badRequest "malformed share code")
  let row ← expect (t.ciphertexts.find? fun c => c.code = some code) ⟨404, "", "unknown share code"⟩
  return (row.ctHash, row.conditionId)

def listCommittees : List Committee := t.committees.insertionSort fun a b => b.createdAt ≤ a.createdAt

def getCommittee (id : Text) : Except ApiError Committee := do
  let resolved ← if id = "default".toList then expect (defaultCommittee t.toDatabase) ⟨404, "", "no committee registered"⟩
    else pure id
  expect (t.committee? resolved) ⟨404, "", "unknown committee"⟩

/-! ### What the network is used for -/

def MAX_WINDOW_SECS : Int := 366 * 24 * 60 * 60
def DEFAULT_WINDOW_SECS : Int := 24 * 60 * 60
def MAX_TAGS : Nat := 50

/-- `i64::clamp`. -/
def clamp (n low high : Int) : Int := max low (min n high)

def statsWindow (windowSecs : Option Int) : Int := clamp (windowSecs.getD DEFAULT_WINDOW_SECS) 60 MAX_WINDOW_SECS

/-- The times the finished batches took, in order. -/
def Tables.openMs : List Int :=
  (t.batches.filterMap fun x => if x.finalizedAt = none then none else
    (t.timing x.id).predecryptMs.bind fun p => (t.timing x.id).finalizeMs.map fun f => p + f).insertionSort (· ≤ ·)

def tagRow (since : Int) (tag : Text) : TagRow :=
  let rows := (t.rounds.map Prod.snd).filter fun c => c.tag = some tag
  { tag := tag
    conditions := rows.length
    ciphertexts := t.ciphertexts.countP fun x =>
      !x.isDummy && (t.conditions x.conditionId).any fun c => c.tag = some tag
    revealed := rows.countP fun c => c.status = .revealed
    firstSeen := (rows.map Condition.createdAt).min?
    lastSeen := (rows.map Condition.createdAt).max?
    recent := rows.countP fun c => since ≤ c.createdAt }

/-- The tags of conditions, those of most conditions first and of these the last used. -/
def topTags : List Text :=
  let tags := ((t.rounds.filterMap fun x => x.2.tag).filter fun tag => tag ≠ []).dedup
  let size (tag : Text) : Nat := t.rounds.countP fun x => x.2.tag = some tag
  let last (tag : Text) : Int :=
    ((t.rounds.filter fun x => x.2.tag = some tag).map fun x => x.2.createdAt).max?.getD 0
  (tags.insertionSort fun a b => size b < size a ∨ (size a = size b ∧ last b ≤ last a)).take MAX_TAGS

def getStats (windowSecs : Option Int) (now : Int) : Stats :=
  let window := statsWindow windowSecs
  let since := now - window
  { conditions := t.rounds.length
    revealed := t.rounds.countP fun x => x.2.status = .revealed
    pending := t.rounds.countP fun x => x.2.status = .pending
    «sealed» := t.ciphertexts.countP fun x => !x.isDummy
    padding := t.ciphertexts.countP fun x => x.isDummy
    windowSecs := window
    recentConditions := t.rounds.countP fun x => since ≤ x.2.createdAt
    recentSealed := t.ciphertexts.countP fun x => !x.isDummy && since ≤ x.createdAt
    medianOpenMs := t.openMs[t.openMs.length / 2]?
    tags := (topTags t).map (tagRow t since)
    asOf := now }

def MAX_DAYS : Int := 90
def DEFAULT_DAYS : Int := 30

def activityDays (days : Option Int) : Nat := (clamp (days.getD DEFAULT_DAYS) 1 MAX_DAYS).toNat

/-- The first second of the day `back` days ago. -/
def dayStart (now : Int) (back : Nat) : Int := now - back * 86400 - (now - back * 86400) % 86400

def onDay (now : Int) (back : Nat) (createdAt : Int) : Bool :=
  dayStart now back ≤ createdAt && createdAt < dayStart now back + 86400

def getActivity (days : Option Int) (now : Int) : Activity where
  days := activityDays days
  asOf := now
  «sealed» := t.ciphertexts.countP fun x => !x.isDummy
  decoys := t.ciphertexts.countP fun x => x.isDummy
  series := (List.range (activityDays days)).reverse.map fun back =>
    t.ciphertexts.countP fun x => !x.isDummy && onDay now back x.createdAt
  rest := cfg.elsewhere (t.withSeals []) (.getActivity days) now

/-! ### `/v1` -/

def DEFAULT_LIMIT : Int := 25
def MAX_LIMIT : Int := 200

def internalStatus (word : Text) : Except Problem Status :=
  if word = "open".toList then .ok .pending
  else if word = "closing".toList then .ok .frozen
  else if word = "opened".toList then .ok .revealed
  else if word = "stalled".toList then .ok .stalled
  else .error (.invalid "invalid_status" "status must be one of open, closing, opened, stalled" (some "status"))

def encodeCursor (createdAt : Int) (id : Text) : Text :=
  Base64.encode Base64.urlSafe (Utf8.encode (Json.decimal createdAt ++ ':' :: id))

def decodeCursor (raw : Text) : Except Problem (Int × Text) := do
  let bad : Problem := .invalid "invalid_cursor" "that cursor is not one we issued" (some "cursor")
  let bytes ← expect (Base64.decodeStrict Base64.urlSafe raw) bad
  let text ← expect (Utf8.decode bytes) bad
  require (':' ∈ text) bad
  let at_ ← expect (parseI64 (Utf8.encode (text.takeWhile (· ≠ ':')))) bad
  return (at_, (text.dropWhile (· ≠ ':')).tail)

/-- A row of `conditions` as `/v1` shows it. -/
def roundOf (id : Text) (c : Condition) : RoundJson :=
  roundJson id (publicStatus c.status) c.kind c.tag ⟨c.title, c.description, c.imageUrl⟩ c.createdAt
    ((t.rowsOf id).countP fun x => !x.isDummy) (t.rowsOf id).length ((t.reveals id).map Reveal.revealedAt)

/-- Newest first, and of one second the greatest id first. -/
def Later (a b : Int × Text) : Prop := b.1 < a.1 ∨ (a.1 = b.1 ∧ b.2 < a.2)

instance : DecidableRel Later := fun _ _ => inferInstanceAs (Decidable (_ ∨ _))

def listRounds (q : ListRounds) : Except Problem Answer := do
  let limit := (clamp (q.limit.getD DEFAULT_LIMIT) 1 MAX_LIMIT).toNat
  let status ← q.status.mapM internalStatus
  let after ← q.cursor.mapM decodeCursor
  let rows := (t.rounds.filter fun x => q.tag.all (fun tag => x.2.tag = some tag) &&
    status.all (fun s => x.2.status = s) && after.all fun cursor => Later cursor (x.2.createdAt, x.1)).insertionSort
      fun x y => ¬Later (y.2.createdAt, y.1) (x.2.createdAt, x.1)
  let page := (rows.take limit).map fun x => roundOf t x.1 x.2
  let hasMore := decide (limit < rows.length)
  return .rounds page (if hasMore then page.getLast?.map fun r => encodeCursor r.createdAt r.id else none) hasMore

def PublicStatus.word : PublicStatus → String
  | .opened => "opened"
  | .closing => "closing"
  | .open => "open"
  | .stalled => "stalled"

/-- A year pads to four places, its sign included, and the other parts to two. -/
def padded (width : Nat) (n : Int) : Text :=
  let digits := Nat.toDigits 10 n.natAbs
  if 0 ≤ n then List.replicate (width - digits.length) '0' ++ digits
  else '-' :: List.replicate (width - 1 - digits.length) '0' ++ digits

def iso (unix : Int) : Text :=
  let secs := unix % 86400
  let z := unix / 86400 + 719468
  let era := (if 0 ≤ z then z else z - 146096).tdiv 146097
  let doe := z - era * 146097
  let yoe := (doe - doe.tdiv 1460 + doe.tdiv 36524 - doe.tdiv 146096).tdiv 365
  let doy := doe - (365 * yoe + yoe.tdiv 4 - yoe.tdiv 100)
  let mp := (5 * doy + 2).tdiv 153
  let d := doy - (153 * mp + 2).tdiv 5 + 1
  let m := if mp < 10 then mp + 3 else mp - 9
  let y := if m ≤ 2 then yoe + era * 400 + 1 else yoe + era * 400
  padded 4 y ++ '-' :: padded 2 m ++ '-' :: padded 2 d ++ 'T' :: padded 2 (secs / 3600) ++
    ':' :: padded 2 (secs % 3600 / 60) ++ ':' :: padded 2 (secs % 60) ++ ['Z']

def jsonOf : Option Nat → Json.Value
  | some n => .num n
  | none => .null

/-- Over the parts that move: the status, the two counts and the time of the reveal. -/
def etag (round : RoundJson) : Text :=
  let openedAt : Json.Value := round.openedAt.elim .null fun at_ => .str (iso at_)
  let text := Json.render (.str round.status.word.toList) ++ Json.render (jsonOf round.seals) ++
    Json.render (jsonOf round.slotsIncludingDecoys) ++ Json.render openedAt
  Json.quoteMark :: (hexEncode (sha256 (Utf8.encode text))).take 16 ++ [Json.quoteMark]

def getRound (id : Text) (ifNoneMatch : Option Text) : Except Problem Answer := do
  let round ← loadRound t.toDatabase id
  if ifNoneMatch.any fun v => (v.splitOn ',').any fun c => trim c = etag round then return .notModified
  return .round round (etag round)

/-- Of slots of one hash, the last. -/
def payloadOf (roundId hash : Text) : Option Bytes :=
  (t.reveals roundId).bind fun r =>
    ((r.payloadsBlob.filter fun s => !s.isDummy).reverse.find? fun s => s.ctHash = hash).map RevealSlot.payload

/-- `ORDER BY position IS NULL, position ASC, ct_hash ASC`. -/
def ListedBefore (x y : Ciphertext) : Prop :=
  match x.position, y.position with
  | some p, some q => p < q ∨ (p = q ∧ x.ctHash ≤ y.ctHash)
  | some _, none => True
  | none, some _ => False
  | none, none => x.ctHash ≤ y.ctHash

instance : DecidableRel ListedBefore := fun x y => by
  unfold ListedBefore
  split <;> infer_instance

def listSeals (roundId : Text) : Except Problem SealList := do
  let round ← loadRound t.toDatabase roundId
  if round.status ≠ .opened then return .unopened round.kind.firesAt
  let rows := ((t.rowsOf roundId).filter fun c => !c.isDummy).insertionSort ListedBefore
  return .opened (rows.map fun c => ⟨c.ctHash, c.position, payloadOf t roundId c.ctHash⟩)

def getSeal (id : Text) : Except Problem SealDetail := do
  let row ← expect (t.ciphertexts.find? fun c => c.ctHash = id ∧ ¬c.isDummy) (.missing "seal")
  let round ← loadRound t.toDatabase row.conditionId
  let payload := if round.status = .opened then payloadOf t row.conditionId id else none
  return ⟨⟨id, row.position, payload⟩, row.conditionId, round.status⟩

def parameters : Except Problem Committee := do
  let id ← expect (defaultCommittee t.toDatabase)
    ⟨503, "no_committee", "this coordinator has no committee registered yet", none⟩
  expect (t.committee? id) (.missing "committee")

def unknownIntent : ApiError := ⟨404, "UNKNOWN_INTENT", "no such intent"⟩

def getIntent (id : Text) : Except ApiError Intent := expect (t.intents.find? fun it => it.id = id) unknownIntent

def getBatchCommitment (batchId : Nat) : Except ApiError BatchCommitment :=
  expect (t.batchCommitments.find? fun x => x.batchId = batchId)
    ⟨404, "NO_COMMITMENT", "this batch has no ordering commitment"⟩

/-! ### The router -/

def Answer.ofProblem {α : Type} (f : α → Answer) : Except Problem α → Answer
  | .ok a => f a
  | .error p => .problem p

def Answer.ofApiError {α : Type} (f : α → Answer) : Except ApiError α → Answer
  | .ok a => f a
  | .error e => .apiError e

def answer (now : Int) : ReadRequest → Answer
  | .listConditions => listConditions t
  | .getCondition id => .ofApiError .condition (getCondition t id)
  | .getWork operator => .ofApiError .work (workBatches cfg t operator)
  | .getReveal conditionId => .ofApiError .reveal (getReveal cfg t conditionId)
  | .resolveSeal code => .ofApiError (fun x => .resolved x.1 x.2) (resolveSeal t code)
  | .listCommittees => .committees (listCommittees t)
  | .getCommittee id => .ofApiError (fun k => .committee k (t.paramsBlob k.id)) (getCommittee t id)
  | .getStats windowSecs => .stats (getStats t windowSecs now)
  | .getActivity days => .activity (getActivity cfg t days now)
  | .parameters => .ofProblem (fun k => .committee k (t.paramsBlob k.id)) (parameters t)
  | .listRounds query => .ofProblem id (listRounds t query)
  | .getRound id ifNoneMatch => .ofProblem (fun a => a) (getRound t id ifNoneMatch)
  | .listSeals roundId => .ofProblem .seals (listSeals t roundId)
  | .getSeal id => .ofProblem .seal (getSeal t id)
  | .getSealProof id => .ofProblem .proof (getSealProof t.toDatabase id)
  | .getAuction id => .ofProblem .auction (auctionJson cfg.toConfig cfg.origin t.toDatabase id)
  | .getResults id => .ofProblem .results (getResults cfg.toConfig cfg.origin t.toDatabase id)
  | .getIntent id => .ofApiError (fun it => .intent it (t.submissionMode it.id)) (getIntent t id)
  | .getIntentEvents id => .ofApiError (fun it => .events (t.intentEvents it.id)) (getIntent t id)
  | .getBatchCommitment batchId =>
    .ofApiError (fun x => .commitment x (t.commitmentSignature x.batchId)) (getBatchCommitment t batchId)
  | .elsewhere path => .elsewhere (cfg.elsewhere (t.withSeals []) (.elsewhere path) now)

end Peal.Coordinator
