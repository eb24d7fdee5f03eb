import Peal.Coordinator.Tables
import Peal.Library.Sha256
import Peal.Links.DepositId

namespace Peal.Coordinator
open Peal.Fallible Peal.Sha256

/-! # Rounds, auctions and lone seals -/

/-! ### Text and time -/

def isWhitespace (c : Char) : Bool :=
  c.toNat ∈ [9, 10, 11, 12, 13, 32, 0x85, 0xa0, 0x1680, 0x2028, 0x2029, 0x202f, 0x205f, 0x3000] ||
    (0x2000 ≤ c.toNat && c.toNat ≤ 0x200a)

def trim (s : Text) : Text := ((s.dropWhile isWhitespace).reverse.dropWhile isWhitespace).reverse

/-- A JSON value where a time is expected: an integer, a string by its bytes, or something else. -/
inductive TimeValue where
  | number (n : Int)
  | text (bytes : Bytes)
  | other
  deriving DecidableEq, Repr

def inI64 (n : Int) : Prop := -2 ^ 63 ≤ n ∧ n < 2 ^ 63

instance (n : Int) : Decidable (inI64 n) := inferInstanceAs (Decidable (_ ∧ _))

def isDigit (b : Nat) : Bool := 48 ≤ b && b ≤ 57

def parseDigits (bytes : Bytes) : Option Nat :=
  if bytes ≠ [] ∧ bytes.all isDigit then some (bytes.foldl (fun n b => 10 * n + (b - 48)) 0) else none

def parseI64 (bytes : Bytes) : Option Int :=
  let n : Option Int := match bytes with
    | 43 :: rest => (parseDigits rest).map Int.ofNat
    | 45 :: rest => (parseDigits rest).map fun n => -Int.ofNat n
    | bytes => (parseDigits bytes).map Int.ofNat
  n.filter fun n => decide (inI64 n)

def slice (bytes : Bytes) (from_ to_ : Nat) : Bytes := (bytes.take to_).drop from_

def parseRfc3339 (b : Bytes) : Option Int := do
  if b.length < 20 ∨ b[4]? ≠ some 45 ∨ b[7]? ≠ some 45 ∨ (b[10]? ≠ some 84 ∧ b[10]? ≠ some 32) then none
  if b.getLast? ≠ some 90 ∧ b.drop (b.length - 6) ≠ [43, 48, 48, 58, 48, 48] then none
  let y ← parseI64 (slice b 0 4)
  let mo ← parseI64 (slice b 5 7)
  let d ← parseI64 (slice b 8 10)
  let h ← parseI64 (slice b 11 13)
  let mi ← parseI64 (slice b 14 16)
  let sec ← parseI64 (slice b 17 19)
  if ¬(1 ≤ mo ∧ mo ≤ 12) ∨ ¬(1 ≤ d ∧ d ≤ 31) ∨ h > 23 ∨ mi > 59 ∨ sec > 60 then none
  let ya := if mo ≤ 2 then y - 1 else y
  let era := (if ya ≥ 0 then ya else ya - 399).tdiv 400
  let yoe := ya - era * 400
  let doy := (153 * (if mo > 2 then mo - 3 else mo + 9) + 2).tdiv 5 + d - 1
  let doe := yoe * 365 + yoe.tdiv 4 - yoe.tdiv 100 + doy
  let days := era * 146097 + doe - 719468
  return days * 86400 + h * 3600 + mi * 60 + sec

def invalidTime : Problem :=
  .invalid "invalid_time" "opens_at must be RFC 3339 (2026-09-12T18:00:00Z) or unix seconds" (some "opens_at")

def parseTime : TimeValue → Except Problem Int
  | .number n => if inI64 n then .ok n else .error invalidTime
  | .text bytes => expect (parseI64 bytes <|> parseRfc3339 bytes) invalidTime
  | .other => .error invalidTime

/-! ### Requests -/

structure OpensAtBlock where
  chainId : Int
  height : Int
  deriving DecidableEq, Repr

structure CreateRound where
  opensAt : Option TimeValue
  opensIn : Option Int
  opensAtBlock : Option OpensAtBlock
  tag : Option Text
  title : Option Text
  description : Option Text
  imageUrl : Option Text
  deriving DecidableEq, Repr

structure CreateAuction where
  title : Option Text
  description : Option Text
  imageUrl : Option Text
  closesIn : Option Int
  closesAt : Option TimeValue
  currency : Option Text
  decimals : Option Int
  reserveMinor : Option Int
  maximumMinor : Option Int
  contactPublicKey : Option Text
  tag : Option Text
  deriving DecidableEq, Repr

structure CreateLoneSeal where
  ciphertextB64 : Text
  unlockAt : Option TimeValue
  unlockIn : Option Int
  tag : Option Text
  title : Option Text
  deriving DecidableEq, Repr

structure Currency where
  code : Text
  decimals : Int

/-- The terms `canonical_terms` serialises, in wire order after the version. -/
structure Terms where
  id : Text
  title : Text
  currency : Text
  decimals : Int
  closesAtUnix : Int
  reserveMinor : Option Int
  maximumMinor : Option Int
  imageUrl : Option Text
  description : Option Text
  contactPublicKey : Option Text
  deriving DecidableEq, Repr

/-- The configuration, and the crates that are called: serde_json, base64 and the ciphertext parser, which gives
back the wire bytes of what it parses. -/
structure Config where
  rpcChains : List Int
  currencies : List Currency
  roundJsonBytes : CreateRound → Bytes
  termsJsonBytes : Nat → Terms → Bytes
  decode64 : Text → Option Bytes
  encodeUrl : Bytes → Text
  ctWire : Bytes → Except String Bytes

variable (cfg : Config)

def requestFingerprint (req : CreateRound) : Text := Peal.Links.hexEncode (sha256 (cfg.roundJsonBytes req))

/-! ### Validation -/

def tagByte (c : Char) : Bool :=
  ('a' ≤ c && c ≤ 'z') || ('0' ≤ c && c ≤ '9') || c = ':' || c = '-' || c = '_'

def validateTag : Option Text → Except Problem (Option Text)
  | none => .ok none
  | some t => do
    let t := trim t
    if t = [] then return none
    require (t.length ≤ 32 ∧ t.all tagByte)
      (.invalid "invalid_tag" "a tag is up to 32 characters of a-z, 0-9, colon, hyphen or underscore" (some "tag"))
    return some t

def MAX_TITLE_CHARS : Nat := 120
def MAX_DESCRIPTION_CHARS : Nat := 2000
def MAX_IMAGE_URL_CHARS : Nat := 500

structure Presentation where
  title : Option Text
  description : Option Text
  imageUrl : Option Text
  deriving DecidableEq, Repr

def presentationText (v : Option Text) (cap : Nat) (field code : String) : Except Problem (Option Text) :=
  match v with
  | none => .ok none
  | some raw => do
    let trimmed := trim raw
    if trimmed = [] then return none
    require (trimmed.length ≤ cap) (.invalid code s!"{field} exceeds {cap} characters" (some field))
    return some trimmed

def presentationImage (v : Option Text) : Except Problem (Option Text) :=
  match (v.map trim).filter (fun s => s ≠ []) with
  | none => .ok none
  | some url => do
    require ("https://".toList <+: url)
      (.invalid "invalid_image_url" "image_url must be an https address" (some "image_url"))
    require (url.length ≤ MAX_IMAGE_URL_CHARS)
      (.invalid "invalid_image_url" s!"image_url exceeds {MAX_IMAGE_URL_CHARS} characters" (some "image_url"))
    require (¬url.any isWhitespace)
      (.invalid "invalid_image_url" "image_url contains whitespace" (some "image_url"))
    return some url

def validatePresentation (req : CreateRound) : Except Problem Presentation := do
  let imageUrl ← presentationImage req.imageUrl
  let title ← presentationText req.title MAX_TITLE_CHARS "title" "invalid_title"
  let description ← presentationText req.description MAX_DESCRIPTION_CHARS "description" "invalid_description"
  return ⟨title, description, imageUrl⟩

/-- The newest committee; of several as new, the one with the least id. -/
def defaultCommittee (db : Database) : Option Text :=
  (db.committees.insertionSort fun a b => b.createdAt < a.createdAt ∨ (a.createdAt = b.createdAt ∧ a.id ≤ b.id)).head?.map
    Committee.id

def roundJson (id : Text) (status : PublicStatus) (kind : Kind) (tag : Option Text) (show_ : Presentation)
    (createdAt : Int) (seals slots : Nat) (openedAt : Option Int) : RoundJson where
  id := id
  status := status
  tag := tag
  title := show_.title
  description := show_.description
  imageUrl := show_.imageUrl
  kind := kind
  seals := if status = .opened ∨ status = .stalled then some seals else none
  slotsIncludingDecoys := if status = .opened ∨ status = .stalled then some slots else none
  createdAt := createdAt
  openedAt := openedAt

/-! ### Creating a round -/

/-- The moment a timed round opens; a sum of seconds wraps like an `i64`. -/
def openingTime (req : CreateRound) (now : Int) : Except Problem Int :=
  match req.opensAt, req.opensIn with
  | some v, _ => parseTime v
  | none, some secs => do
    require (0 < secs) (.invalid "opens_in_past" "opens_in must be positive" (some "opens_in"))
    return Int.bmod (now + secs) (2 ^ 64)
  | none, none =>
    .error (.invalid "missing_deadline" "give opens_at, opens_in or opens_at_block" (some "opens_at"))

def opening (req : CreateRound) (now : Int) : Except Problem Kind :=
  match req.opensAtBlock with
  | some block => do
    require (block.chainId ∈ cfg.rpcChains)
      (.invalid "unsupported_chain" s!"this coordinator does not watch chain {block.chainId}"
        (some "opens_at_block.chain_id"))
    require (0 < block.height) (.invalid "invalid_height" "height must be positive" (some "opens_at_block.height"))
    return .atBlock block.chainId block.height
  | none => do
    let at_ ← openingTime req now
    require (now < at_)
      (.invalid "opens_in_past" "a round cannot open in the past; nothing could be sealed to it" (some "opens_at"))
    return .atTime at_

/-- From the validation of a fresh request to its row in `conditions`; `id` is the drawn round id. -/
def insertRound (req : CreateRound) (db : Database) (now : Int) (id : Text) : Except Problem (Database × RoundJson) := do
  let tag ← validateTag req.tag
  let show_ ← validatePresentation req
  let committeeId ← expect (defaultCommittee db)
    ⟨503, "no_committee", "this coordinator has no committee registered yet", none⟩
  let kind ← opening cfg req now
  require (db.conditions id = none) .internal
  let row : Condition :=
    ⟨committeeId, kind, .pending, tag, show_.title, show_.description, show_.imageUrl, now⟩
  return (db.insertCondition id row, roundJson id .open kind tag show_ now 0 0 none)

/-! ### Idempotency keys -/

def IDEMPOTENCY_TTL_SECS : Int := 24 * 60 * 60

inductive Replay where
  | fresh
  | same (existing : RoundJson)
  | different
  deriving DecidableEq, Repr

def replay (db : Database) (now : Int) (key fingerprint : Text) : Replay :=
  match db.idempotency key with
  | some row =>
    if now - row.createdAt < IDEMPOTENCY_TTL_SECS then
      if row.requestHash.all (fun hash => hash = fingerprint) then .same row.responseJson else .different
    else .fresh
  | none => .fresh

def remember (db : Database) (key roundId : Text) (body : RoundJson) (fingerprint : Text) (now : Int) : Database :=
  { db with idempotency := Function.update db.idempotency key (some ⟨roundId, body, now, some fingerprint⟩) }

/-- The `Idempotency-Key` a request carries, if any. -/
def idempotencyKey (header : Option Text) : Option Text := (header.map trim).filter fun s => s ≠ []

def keyTooLong : Problem := .invalid "invalid_idempotency_key" "key is too long" (some "Idempotency-Key")

def keyReused : Problem where
  status := 422
  code := "idempotency_key_reused"
  detail := "this Idempotency-Key was already used with a different request. Use a new key, or send the original request again."
  field := some "Idempotency-Key"

/-! ### Auctions -/

def MAX_AMOUNT_MINOR : Int := 1000000000000

def equalIgnoreAsciiCase (a b : Text) : Bool := a.map Char.toLower = b.map Char.toLower

def findCurrency (code : Text) : Option Currency :=
  cfg.currencies.find? fun c => equalIgnoreAsciiCase c.code (trim code)

def amountInRange (value : Option Int) (field code : String) : Except Problem Unit :=
  require (value.all fun v => 0 ≤ v ∧ v ≤ MAX_AMOUNT_MINOR)
    (.invalid code "must be a whole number of minor units inside the ceiling" (some field))

/-- The rules a request asks for, once they pass every check. -/
def auctionRules (req : CreateAuction) : Except Problem Rules := do
  let currency := req.currency.getD ['U', 'S', 'D']
  require (¬trim currency = [] ∧ currency.length ≤ 12)
    (.invalid "invalid_currency" "a currency is 1 to 12 characters" (some "currency"))
  let known := findCurrency cfg currency
  let decimals := req.decimals.getD ((known.map Currency.decimals).getD 2)
  require (0 ≤ decimals ∧ decimals ≤ 4) (.invalid "invalid_decimals" "decimals must be 0 to 4" (some "decimals"))
  amountInRange req.reserveMinor "reserve_minor" "invalid_reserve"
  amountInRange req.maximumMinor "maximum_minor" "invalid_maximum"
  require (∀ r ∈ req.reserveMinor, ∀ m ∈ req.maximumMinor, r ≤ m)
    (.invalid "invalid_maximum" "the maximum cannot be below the reserve" (some "maximum_minor"))
  return ⟨(known.map Currency.code).getD (trim currency), decimals, req.reserveMinor, req.maximumMinor,
    req.contactPublicKey⟩

/-- The round an auction opens. -/
def CreateAuction.round (req : CreateAuction) : CreateRound where
  opensAt := req.closesAt
  opensIn := req.closesIn
  opensAtBlock := none
  tag := req.tag
  title := req.title
  description := req.description
  imageUrl := req.imageUrl

def insertAuction (db : Database) (id : Text) (rules : Rules) : Database :=
  { db with auctions := Function.update db.auctions id (some rules) }

def loadRound (db : Database) (id : Text) : Except Problem RoundJson := do
  let c ← expect (db.conditions id) (.missing "round")
  return roundJson id (publicStatus c.status) c.kind c.tag ⟨c.title, c.description, c.imageUrl⟩ c.createdAt
    ((db.rowsOf id).countP fun x => !x.isDummy) (db.rowsOf id).length ((db.reveals id).map Reveal.revealedAt)

structure AuctionJson where
  round : RoundJson
  rules : Rules
  bidUrl : Option Text
  checkCode : Option Text
  termsHash : Option Text
  deriving DecidableEq, Repr

def TERMS_VERSION : Nat := 5

def termsText (v : Option Text) : Option Text := (v.map trim).filter fun s => s ≠ []

/-- The terms of an auction; none without a title or without a clock to close it. -/
def canonicalTerms (round : RoundJson) (rules : Rules) : Option Terms := do
  let title ← termsText round.title
  let closesAt ← match round.kind with
    | .atTime at_ => some at_
    | .atBlock _ _ => none
  return ⟨round.id, title, rules.currency, rules.decimals, closesAt, rules.reserveMinor, rules.maximumMinor,
    termsText round.imageUrl, termsText round.description, rules.contactPublicKey⟩

def liveLink (origin : Text) (canonical : Bytes) : Text := origin ++ "/#/live/".toList ++ cfg.encodeUrl canonical

def termsHash (canonical : Bytes) : Text := "0x".toList ++ Peal.Links.hexEncode (sha256 canonical)

def BASE32 : Text := "0123456789ABCDEFGHJKMNPQRSTVWXYZ".toList

/-- Forty bits of the hash in eight characters, the least significant group first. -/
def checkCode (canonical : Bytes) : Text :=
  let bits := ((sha256 canonical).take 5).foldl (fun bits byte => bits * 256 + byte) 0
  let out := (List.range 8).map fun i => BASE32.getD (bits / 2 ^ (5 * i) % 32) '0'
  out.take 4 ++ ' ' :: out.drop 4

def auctionJson (origin : Text) (db : Database) (id : Text) : Except Problem AuctionJson := do
  let round ← loadRound db id
  let rules ← expect (db.auctions id) (.missing "auction")
  let canonical := (canonicalTerms round rules).map (cfg.termsJsonBytes TERMS_VERSION)
  return ⟨round, rules, canonical.map (liveLink cfg origin), canonical.map checkCode, canonical.map termsHash⟩

/-- Whether a bid can win. -/
def eligible (rules : Rules) (amount : Int) : Bool :=
  rules.reserveMinor.all (fun r => r ≤ amount) && rules.maximumMinor.all fun m => amount ≤ m

/-! ### Seals -/

def CreateLoneSeal.round (req : CreateLoneSeal) : CreateRound where
  opensAt := req.unlockAt
  opensIn := req.unlockIn
  opensAtBlock := none
  tag := req.tag
  title := req.title
  description := none
  imageUrl := none

def MAX_PAYLOAD_BYTES : Nat := 5 * 1024 * 1024

/-- `INSERT OR IGNORE`: nothing is written when the hash or the share code is taken. -/
def insertSeal (db : Database) (ctHash roundId : Text) (blob : Bytes) (now : Int) (code : Text) : Database :=
  if (db.seal? ctHash).isSome ∨ db.ciphertexts.any (fun c => c.code = some code) then db
  else { db with ciphertexts := db.ciphertexts ++ [⟨ctHash, roundId, blob, false, none, now, some code⟩] }

def roundClosed : Problem :=
  ⟨409, "round_closed", "this round has already closed; nothing further can be sealed to it", none⟩

/-- The content address of a ciphertext: the hash over its wire bytes. -/
def ctHash (wire : Bytes) : Text := Peal.Links.hexEncode (sha256 wire)

/-- The hash of an uploaded ciphertext, once its text is short enough, decodes and parses. -/
def sealId (ciphertextB64 : Text) : Except Problem (Text × Bytes) := do
  require ((ciphertextB64.map Char.utf8Size).sum ≤ (MAX_PAYLOAD_BYTES + 4096) * 4 / 3 + 8)
    (.invalid "payload_too_large" "the ciphertext exceeds the limit" (some "ciphertext_b64"))
  let blob ← expect (cfg.decode64 ciphertextB64)
    (.invalid "invalid_base64" "ciphertext_b64 is not valid base64" (some "ciphertext_b64"))
  match cfg.ctWire blob with
  | .ok wire => return (ctHash wire, blob)
  | .error e =>
    throw ⟨422, "invalid_ciphertext", s!"this is not a well formed ciphertext: {e}", some "ciphertext_b64"⟩

/-- `create_seal`: the new tables, the seal id and the status, 201 when a row was inserted. -/
def createSeal (db : Database) (roundId ciphertextB64 : Text) (now : Int) (code : Text) :
    Except Problem (Database × Text × Nat) := do
  let (id, blob) ← sealId cfg ciphertextB64
  let condition ← expect (db.conditions roundId) (.missing "round")
  require (condition.status = .pending) roundClosed
  let db' := insertSeal db id roundId blob now code
  return (db', id, if db'.ciphertexts.length = db.ciphertexts.length then 200 else 201)

end Peal.Coordinator
