import Peal.Coordinator.Rounds
import Peal.Links.SignedPayloads

namespace Peal.Links.PaymentRequests
open Peal.Fallible Peal.Runs
open Peal.Actions (utf8)

/-! # Payment requests -/

/-! ### Manifests and acknowledgements -/

def MANIFEST_VERSION : Nat := 2
def MAX_TITLE : Nat := 140
def MAX_DISPLAY_NAME : Nat := 60
def MAX_REFERENCE : Nat := 64

/-- 24 bytes of lowercase base32. -/
def isRequestId (s : Text) : Bool :=
  (utf8 s).length = 24 && (utf8 s).all fun b => (97 ≤ b && b ≤ 122) || (50 ≤ b && b ≤ 55)

def isEvmAddress (s : Text) : Bool :=
  (utf8 s).length = 42 && s.take 2 = "0x".toList &&
    (utf8 (s.drop 2)).all fun b => (48 ≤ b && b ≤ 57) || (97 ≤ b && b ≤ 102)

def validateFields (m : RequestManifest) : Except Error Unit := do
  require (m.version = MANIFEST_VERSION) (.wire "unsupported manifest version")
  require (isRequestId m.requestId = true) (.wire "bad request id")
  require (¬(Coordinator.trim m.title = [] ∨ MAX_TITLE < m.title.length)) (.wire "title must be 1 to 140 characters")
  require (¬(Coordinator.trim m.displayName = [] ∨ MAX_DISPLAY_NAME < m.displayName.length))
    (.wire "display name must be 1 to 60 characters")
  require (∀ r ∈ m.reference, r.length ≤ MAX_REFERENCE) (.wire "reference too long")
  require (isEvmAddress m.receiverAddress = true) (.wire "receiver address must be a lowercase 0x address")
  require (m.amount ≠ 0) (.wire "amount must be positive")
  require (∀ e ∈ m.expiresAt, m.createdAt < e) (.wire "expiry must be after creation")

section Signatures

variable (c : Crypto)

def verifyManifest (m : RequestManifest) : Except Error Unit := do
  validateFields m
  require (c.keyValid m.signerPubkey = true) .badSignature
  require (accountId c m.namespaceId m.signerPubkey = m.receiverAccount) .badSignature
  require (c.signed m.signerPubkey (Wire.RequestManifest.signingBytes m) m.signature = true) .badSignature

def verifyAck (ack : FulfillmentAck) : Except Error Unit := do
  require (c.keyValid ack.signerPubkey = true) .badSignature
  require (accountId c ack.namespaceId ack.signerPubkey = ack.receiverAccount) .badSignature
  require (c.signed ack.signerPubkey (Wire.FulfillmentAck.signingBytes ack) ack.signature = true) .badSignature

end Signatures

/-! ### The table `requests` -/

inductive Status where
  | active
  | archived
  | fulfilled
  deriving DecidableEq, Repr

def Status.text : Status → String
  | .active => "active"
  | .archived => "archived"
  | .fulfilled => "fulfilled"

/-- A row; JSON and hex columns by the values they spell, times by the `u64` cast back from the column. -/
structure Row where
  namespaceId : Namespace
  ownerAddress : Text
  receiver : Fr
  manifest : RequestManifest
  status : Status
  fulfilledAt : Option Nat
  ack : Option FulfillmentAck
  reservedBy : Option Text
  reservedUntil : Option Nat
  createdAt : Nat
  updatedAt : Nat
  deriving DecidableEq, Repr

/-- The table by its primary key. -/
abbrev Table := Text → Option Row

def Table.put (s : Table) (id : Text) (row : Row) : Table := Function.update s id (some row)

@[simp] lemma Table.put_self (s : Table) (id : Text) (row : Row) : s.put id row id = some row := by
  simp [Table.put]

lemma Table.put_other (s : Table) {id id' : Text} (row : Row) (h : id' ≠ id) : s.put id row id' = s id' := by
  simp [Table.put, h]

def empty : Table := fun _ => none

structure RequestOut where
  manifest : RequestManifest
  status : String
  fulfilledAt : Option Nat
  reserved : Bool
  deriving DecidableEq, Repr

def Expired (m : RequestManifest) (now : Nat) : Prop := ∃ e ∈ m.expiresAt, e ≤ now

instance (m : RequestManifest) (now : Nat) : Decidable (Expired m now) :=
  inferInstanceAs (Decidable (∃ e ∈ m.expiresAt, e ≤ now))

def requestOut (row : Row) (callerIntent : Option Text) (now : Nat) : RequestOut :=
  let status := if row.status = .active ∧ Expired row.manifest now then "expired" else row.status.text
  let held := status = "active" ∧ ∃ u ∈ row.reservedUntil, now < u
  let mine := callerIntent.isSome = true ∧ row.reservedBy = callerIntent
  ⟨row.manifest, status, row.fulfilledAt, decide (held ∧ ¬mine)⟩

/-! ### The endpoints -/

def RESERVE_SECS : Nat := 10 * 60

inductive Answer where
  | created (out : RequestOut)
  | existing (out : RequestOut)
  | done
  | reserved (until_ : Nat)
  deriving DecidableEq, Repr

/-- A call, with what its session, the ledger and the clock answer it. -/
inductive Call where
  | create (session : Except Problem Text) (m : RequestManifest) (registered : Except Error Bool) (now later : Nat)
  | archive (session : Except Problem Text) (id : Text) (now : Nat)
  | reserve (id intentId : Text) (now : Nat)
  | fulfill (id : Text) (ack : FulfillmentAck) (now : Nat)
  | revokeProfile (namespaceId : Namespace) (owner : Text) (now : Nat)

section Endpoints

variable (c : Crypto) (serves : Namespace → Bool)

def createRequest (s : Table) (session : Except Problem Text) (m : RequestManifest) (registered : Except Error Bool)
    (now later : Nat) : Except Problem (Answer × Table) := do
  let address ← session
  (verifyManifest c m).mapError fun e => ⟨"bad_manifest", (Problem.ofError e).detail⟩
  require (serves m.namespaceId = true)
    ⟨"unknown_namespace", "manifest names a namespace this node does not serve".toList⟩
  require (¬(now + 300 < m.createdAt ∨ m.createdAt + 3600 < now))
    ⟨"bad_manifest", "created_at must be close to now".toList⟩
  require (¬Expired m now) ⟨"bad_manifest", "already expired".toList⟩
  let found ← registered.mapError Problem.ofError
  require (found = true) ⟨"unregistered_receiver", "the receiving account is not registered on the ledger".toList⟩
  match s m.requestId with
  | some row =>
    if row.manifest = m then return (.existing (requestOut row none later), s)
    else throw ⟨"request_exists", "a different request already uses this id".toList⟩
  | none =>
    return (.created ⟨m, "active", none, false⟩, s.put m.requestId {
      namespaceId := m.namespaceId
      ownerAddress := address
      receiver := m.receiverAccount
      manifest := m
      status := .active
      fulfilledAt := none
      ack := none
      reservedBy := none
      reservedUntil := none
      createdAt := now
      updatedAt := now })

def unknownRequest (detail : String) : Problem := ⟨"unknown_request", detail.toList⟩

def checkRequestId (id : Text) : Except Problem Unit :=
  require (isRequestId id = true) (unknownRequest "not a request id")

def archiveRequest (s : Table) (session : Except Problem Text) (id : Text) (now : Nat) :
    Except Problem (Answer × Table) := do
  let address ← session
  checkRequestId id
  let row ← expect ((s id).filter fun row => row.ownerAddress = address ∧ row.status = .active)
    (unknownRequest "no active request of yours with this id")
  return (.done, s.put id { row with status := .archived, updatedAt := now })

/-- Another intent's reservation, still in force. -/
def HeldByOther (row : Row) (intentId : Text) (now : Nat) : Prop :=
  (∃ b ∈ row.reservedBy, b ≠ intentId) ∧ ∃ u ∈ row.reservedUntil, now < u

instance (row : Row) (intentId : Text) (now : Nat) : Decidable (HeldByOther row intentId now) :=
  inferInstanceAs (Decidable (_ ∧ _))

def reserveRequest (s : Table) (id intentId : Text) (now : Nat) : Except Problem (Answer × Table) := do
  checkRequestId id
  require (¬((utf8 intentId).length < 8 ∨ 64 < (utf8 intentId).length)) ⟨"malformed", "intent id".toList⟩
  let row ← expect (s id) (unknownRequest "no such request")
  require (¬(row.status ≠ .active ∨ Expired row.manifest now))
    ⟨"not_payable", "request is ".toList ++ row.status.text.toList⟩
  require (¬HeldByOther row intentId now)
    ⟨"reserved", "another payer is completing this request; try again in a few minutes".toList⟩
  return (.reserved (now + RESERVE_SECS),
    s.put id { row with reservedBy := intentId, reservedUntil := now + RESERVE_SECS, updatedAt := now })

def fulfillRequest (s : Table) (id : Text) (ack : FulfillmentAck) (now : Nat) : Except Problem (Answer × Table) := do
  checkRequestId id
  require (ack.requestId = id) ⟨"malformed", "ack is for another request".toList⟩
  (verifyAck c ack).mapError fun e => ⟨"unauthorized", (Problem.ofError e).detail⟩
  let row ← expect (s id) (unknownRequest "no such request")
  require (row.receiver = ack.receiverAccount)
    ⟨"unauthorized", "ack is not signed by this request's receiver".toList⟩
  -- the update asks for no status
  return (.done, s.put id { row with
    status := .fulfilled, fulfilledAt := ack.claimedAt, ack := ack, updatedAt := now })

/-- The one other statement that writes the table: a revoked profile archives its owner's requests. -/
def archiveAll (s : Table) (namespaceId : Namespace) (owner : Text) (now : Nat) : Table := fun id =>
  (s id).map fun row =>
    if row.namespaceId = namespaceId ∧ row.ownerAddress = owner ∧ row.status = .active then
      { row with status := .archived, updatedAt := now }
    else row

def respond (s : Table) : Call → Except Problem (Answer × Table)
  | .create session m registered now later => createRequest c serves s session m registered now later
  | .archive session id now => archiveRequest s session id now
  | .reserve id intentId now => reserveRequest s id intentId now
  | .fulfill id ack now => fulfillRequest c s id ack now
  | .revokeProfile namespaceId owner now => .ok (.done, archiveAll s namespaceId owner now)

def step (s : Table) (call : Call) : Except Problem Table := (respond c serves s call).map Prod.snd

end Endpoints

/-! ### What a call does to a row -/

section Steps

variable {c : Crypto} {serves : Namespace → Bool} {s s' : Table} {call : Call} {answer : Answer} {id : Text} {row : Row}

/-- The acknowledgement passes every check of the endpoint. -/
structure Acknowledges (c : Crypto) (id : Text) (row : Row) (ack : FulfillmentAck) : Prop where
  wellFormed : isRequestId id = true
  request : ack.requestId = id
  verified : verifyAck c ack = .ok ()
  receiver : row.receiver = ack.receiverAccount

structure Created (c : Crypto) (id : Text) (row : Row) : Prop where
  verified : verifyManifest c row.manifest = .ok ()
  request : row.manifest.requestId = id
  receiver : row.receiver = row.manifest.receiverAccount
  status : row.status = .active
  open_ : row.fulfilledAt = none ∧ row.ack = none
  free : row.reservedBy = none ∧ row.reservedUntil = none

/-- What a call can make of a row that is there. -/
inductive Touched (c : Crypto) : Call → Text → Row → Row → Prop
  | kept {call : Call} {id : Text} {row : Row} : Touched c call id row row
  | archived {call : Call} {id : Text} {row : Row} {now : Nat} (active : row.status = .active) :
      Touched c call id row { row with status := .archived, updatedAt := now }
  | reserved {id intentId : Text} {row : Row} {now : Nat} (active : row.status = .active)
      (fresh : ¬Expired row.manifest now) (free : ¬HeldByOther row intentId now) :
      Touched c (.reserve id intentId now) id row
        { row with reservedBy := intentId, reservedUntil := now + RESERVE_SECS, updatedAt := now }
  | fulfilled {id : Text} {row : Row} {ack : FulfillmentAck} {now : Nat} (valid : Acknowledges c id row ack) :
      Touched c (.fulfill id ack now) id row
        { row with status := .fulfilled, fulfilledAt := ack.claimedAt, ack := ack, updatedAt := now }

lemma createRequest_ok {session : Except Problem Text} {m : RequestManifest} {registered : Except Error Bool}
    {now later : Nat} (h : createRequest c serves s session m registered now later = .ok (answer, s')) :
    s' = s ∨ s m.requestId = none ∧ ∃ row, Created c m.requestId row ∧ s' = s.put m.requestId row := by
  simp only [createRequest, bind_eq_ok, require_eq_ok, mapError_eq_ok] at h
  obtain ⟨address, -, ⟨⟩, hverify, -, -, -, -, -, -, found, -, -, -, h⟩ := h
  cases hrow : s m.requestId with
  | none =>
    rw [hrow] at h
    obtain ⟨-, rfl⟩ := Prod.mk.inj (pure_eq_ok.mp h)
    exact .inr ⟨rfl, _, ⟨hverify, rfl, rfl, rfl, ⟨rfl, rfl⟩, rfl, rfl⟩, rfl⟩
  | some row =>
    rw [hrow] at h
    dsimp only at h
    split_ifs at h
    obtain ⟨-, rfl⟩ := Prod.mk.inj (pure_eq_ok.mp h)
    exact .inl rfl

lemma archiveRequest_ok {session : Except Problem Text} {now : Nat}
    (h : archiveRequest s session id now = .ok (answer, s')) :
    ∃ row, s id = some row ∧ row.status = .active ∧ s' = s.put id { row with status := .archived, updatedAt := now } := by
  simp only [archiveRequest, bind_eq_ok, expect_eq_ok, pure_eq_ok, Option.filter_eq_some_iff,
    decide_eq_true_eq] at h
  obtain ⟨address, -, -, -, row, ⟨hrow, -, hactive⟩, h⟩ := h
  obtain ⟨-, rfl⟩ := Prod.mk.inj h
  exact ⟨row, hrow, hactive, rfl⟩

lemma reserveRequest_ok {intentId : Text} {now : Nat} : reserveRequest s id intentId now = .ok (answer, s') ↔
    isRequestId id = true ∧ (8 ≤ (utf8 intentId).length ∧ (utf8 intentId).length ≤ 64) ∧
      ∃ row, s id = some row ∧ (row.status = .active ∧ ¬Expired row.manifest now) ∧ ¬HeldByOther row intentId now ∧
        answer = .reserved (now + RESERVE_SECS) ∧
        s' = s.put id { row with reservedBy := intentId, reservedUntil := now + RESERVE_SECS, updatedAt := now } := by
  simp only [reserveRequest, checkRequestId, bind_eq_ok, require_eq_ok, expect_eq_ok, pure_eq_ok, Prod.mk.injEq,
    not_or, not_lt, not_not]
  constructor
  · rintro ⟨-, hid, -, hintent, row, hrow, -, hpayable, -, hfree, rfl, rfl⟩
    exact ⟨hid, hintent, row, hrow, hpayable, hfree, rfl, rfl⟩
  · rintro ⟨hid, hintent, row, hrow, hpayable, hfree, rfl, rfl⟩
    exact ⟨(), hid, (), hintent, row, hrow, (), hpayable, (), hfree, rfl, rfl⟩

lemma fulfillRequest_ok {ack : FulfillmentAck} {now : Nat} : fulfillRequest c s id ack now = .ok (answer, s') ↔
    ∃ row, s id = some row ∧ Acknowledges c id row ack ∧ answer = .done ∧
      s' = s.put id { row with status := .fulfilled, fulfilledAt := ack.claimedAt, ack := ack, updatedAt := now } := by
  simp only [fulfillRequest, checkRequestId, bind_eq_ok, require_eq_ok, expect_eq_ok, mapError_eq_ok, pure_eq_ok,
    Prod.mk.injEq]
  constructor
  · rintro ⟨-, hid, -, hrequest, ⟨⟩, hverified, row, hrow, -, hreceiver, rfl, rfl⟩
    exact ⟨row, hrow, ⟨hid, hrequest, hverified, hreceiver⟩, rfl, rfl⟩
  · rintro ⟨row, hrow, ⟨hid, hrequest, hverified, hreceiver⟩, rfl, rfl⟩
    exact ⟨(), hid, (), hrequest, (), hverified, row, hrow, (), hreceiver, rfl, rfl⟩

lemma step_eq_ok : step c serves s call = .ok s' ↔ ∃ answer, respond c serves s call = .ok (answer, s') := by
  rw [step, exceptMap_eq_ok]
  constructor
  · rintro ⟨⟨answer, _⟩, h, rfl⟩
    exact ⟨answer, h⟩
  · rintro ⟨answer, h⟩
    exact ⟨_, h, rfl⟩

lemma touched_put {id₀ : Text} {row₀ row₀' : Row} (h₀ : s id₀ = some row₀) (ht : Touched c call id₀ row₀ row₀')
    (hrow : s id = some row) : ∃ row', s.put id₀ row₀' id = some row' ∧ Touched c call id row row' := by
  by_cases hid : id = id₀
  · subst hid
    obtain rfl := Option.some.inj (h₀.symm.trans hrow)
    exact ⟨row₀', s.put_self id row₀', ht⟩
  · exact ⟨row, by rw [s.put_other row₀' hid, hrow], .kept⟩

/-- A row stays, as the call leaves it. -/
theorem step_row (h : step c serves s call = .ok s') (hrow : s id = some row) :
    ∃ row', s' id = some row' ∧ Touched c call id row row' := by
  obtain ⟨answer, h⟩ := step_eq_ok.mp h
  cases call with
  | create session m registered now later =>
    rcases createRequest_ok h with rfl | ⟨hnone, new, -, rfl⟩
    · exact ⟨row, hrow, .kept⟩
    · have hid : id ≠ m.requestId := by
        rintro rfl
        simp [hrow] at hnone
      exact ⟨row, by rw [s.put_other new hid, hrow], .kept⟩
  | archive session id₀ now =>
    obtain ⟨row₀, h₀, hactive, rfl⟩ := archiveRequest_ok h
    exact touched_put h₀ (.archived hactive) hrow
  | reserve id₀ intentId now =>
    obtain ⟨-, -, row₀, h₀, ⟨hactive, hfresh⟩, hfree, -, rfl⟩ := reserveRequest_ok.mp h
    exact touched_put h₀ (.reserved hactive hfresh hfree) hrow
  | fulfill id₀ ack now =>
    obtain ⟨row₀, h₀, hvalid, -, rfl⟩ := fulfillRequest_ok.mp h
    exact touched_put h₀ (.fulfilled hvalid) hrow
  | revokeProfile namespaceId owner now =>
    obtain ⟨-, rfl⟩ := Prod.mk.inj (Except.ok.inj h)
    refine ⟨_, by rw [archiveAll, hrow, Option.map_some], ?_⟩
    split_ifs with hmine
    · exact .archived hmine.2.2
    · exact .kept

/-- A row that was not there has just been created. -/
theorem step_new (h : step c serves s call = .ok s') (hnone : s id = none) {row' : Row} (hrow' : s' id = some row') :
    Created c id row' := by
  obtain ⟨answer, h⟩ := step_eq_ok.mp h
  have hput : ∀ {id₀ : Text} {row₀ row₀' : Row}, s id₀ = some row₀ → s' = s.put id₀ row₀' → Created c id row' := by
    intro id₀ row₀ row₀' h₀ hs'
    have hid : id ≠ id₀ := by
      rintro rfl
      simp [hnone] at h₀
    rw [hs', s.put_other row₀' hid, hnone] at hrow'
    cases hrow'
  cases call with
  | create session m registered now later =>
    rcases createRequest_ok h with rfl | ⟨-, new, hnew, rfl⟩
    · rw [hnone] at hrow'
      cases hrow'
    · by_cases hid : id = m.requestId
      · subst hid
        rw [s.put_self] at hrow'
        obtain rfl := Option.some.inj hrow'
        exact hnew
      · rw [s.put_other new hid, hnone] at hrow'
        cases hrow'
  | archive session id₀ now =>
    obtain ⟨row₀, h₀, -, hs'⟩ := archiveRequest_ok h
    exact hput h₀ hs'
  | reserve id₀ intentId now =>
    obtain ⟨-, -, row₀, h₀, -, -, -, hs'⟩ := reserveRequest_ok.mp h
    exact hput h₀ hs'
  | fulfill id₀ ack now =>
    obtain ⟨row₀, h₀, -, -, hs'⟩ := fulfillRequest_ok.mp h
    exact hput h₀ hs'
  | revokeProfile namespaceId owner now =>
    obtain ⟨-, rfl⟩ := Prod.mk.inj (Except.ok.inj h)
    rw [archiveAll, hnone] at hrow'
    cases hrow'

end Steps

/-! ### Whole runs -/

section Runs

variable (c : Crypto) (serves : Namespace → Bool)

/-- The table after the first `n` calls. -/
def moment (calls : List Call) (n : Nat) : Table := exec (step c serves) empty (calls.take n)

def Granted (s : Table) (id intentId : Text) (now until_ : Nat) : Prop :=
  ∃ s', reserveRequest s id intentId now = .ok (.reserved until_, s')

/-- One of the first `n` calls was promised the request until then. -/
def Promised (calls : List Call) (n : Nat) (id intentId : Text) (until_ : Nat) : Prop :=
  ∃ k now, k < n ∧ calls[k]? = some (.reserve id intentId now) ∧
    Granted (moment c serves calls k) id intentId now until_

def reserveClock : Call → Option Nat
  | .reserve _ _ now => some now
  | _ => none

/-- No reservation was made at a later time than the next, nor than `t`. -/
def Forward (calls : List Call) (t : Nat) : Prop := (calls.filterMap reserveClock ++ [t]).Pairwise (· ≤ ·)

/-- A key of the account the manifest names has signed the acknowledgement. -/
def SignedByReceiver (authored : Nat → Bytes → Prop) (m : RequestManifest) (ack : FulfillmentAck) : Prop :=
  ack.requestId = m.requestId ∧ accountId c ack.namespaceId ack.signerPubkey = m.receiverAccount ∧
    authored ack.signerPubkey (Wire.FulfillmentAck.signingBytes ack)

structure Lifecycle (authored : Nat → Bytes → Prop) (calls : List Call) : Prop where
  manifest : ∀ m n, m ≤ n → ∀ id row, moment c serves calls m id = some row →
    ∃ row', moment c serves calls n id = some row' ∧ row'.manifest = row.manifest
  acknowledged : ∀ n id row', moment c serves calls (n + 1) id = some row' → row'.status = .fulfilled →
    (∀ row, moment c serves calls n id = some row → row.status ≠ .fulfilled) →
    ∃ ack now, calls[n]? = some (.fulfill id ack now) ∧ SignedByReceiver c authored row'.manifest ack
  settled : ∀ m n, m ≤ n → ∀ id row, moment c serves calls m id = some row → row.status = .fulfilled →
    ∃ row', moment c serves calls n id = some row' ∧ row'.status = .fulfilled ∧
      row'.fulfilledAt = row.fulfilledAt ∧ row'.ack = row.ack
  payable : ∀ n id intentId now until_, calls[n]? = some (.reserve id intentId now) →
    Granted (moment c serves calls n) id intentId now until_ →
    ∃ row, moment c serves calls n id = some row ∧ row.status = .active ∧ ¬Expired row.manifest now
  shown : ∀ n id row intent now, moment c serves calls n id = some row →
    (requestOut row intent now).reserved = true → row.status = .active ∧ ¬Expired row.manifest now
  undisturbed : ∀ n id intentId now until_ row, calls[n]? = some (.reserve id intentId now) →
    Granted (moment c serves calls n) id intentId now until_ → moment c serves calls n id = some row →
    ∀ holder ∈ row.reservedBy, ∀ u ∈ row.reservedUntil, now < u → holder = intentId
  exclusive : ∀ n t, Forward (calls.take n) t → ∀ id i j u v, Promised c serves calls n id i u →
    Promised c serves calls n id j v → t < u → t < v → i = j

/-- A valid acknowledgement of a request that is fulfilled already is the one it has. -/
def Repeats (s : Table) : Call → Prop
  | .fulfill id ack _ => ∀ row, s id = some row → row.status = .fulfilled → Acknowledges c id row ack →
      row.ack = some ack
  | _ => True

/-- What every row of a reachable table keeps. -/
structure Kept (id : Text) (row : Row) : Prop where
  request : row.manifest.requestId = id
  receiver : row.receiver = row.manifest.receiverAccount
  acked : row.fulfilledAt = row.ack.map FulfillmentAck.claimedAt

def Sound (s : Table) : Prop := ∀ id row, s id = some row → Kept id row

variable {c serves} {calls : List Call}

lemma Touched.keeps {call : Call} {id : Text} {row row' : Row} (h : Touched c call id row row') (hk : Kept id row) :
    Kept id row' := by
  cases h with
  | kept => exact hk
  | archived _ => exact ⟨hk.request, hk.receiver, hk.acked⟩
  | reserved _ _ _ => exact ⟨hk.request, hk.receiver, hk.acked⟩
  | fulfilled _ => exact ⟨hk.request, hk.receiver, rfl⟩

lemma Touched.manifest {call : Call} {id : Text} {row row' : Row} (h : Touched c call id row row') :
    row'.manifest = row.manifest := by
  cases h <;> rfl

lemma Sound.step {s s' : Table} {call : Call} (hs : Sound s) (h : step c serves s call = .ok s') : Sound s' := by
  intro id row' hrow'
  cases hrow : s id with
  | none =>
    have hnew := step_new h hrow hrow'
    exact ⟨hnew.request, hnew.receiver, by rw [hnew.open_.1, hnew.open_.2, Option.map_none]⟩
  | some row =>
    obtain ⟨_, hafter, htouched⟩ := step_row h hrow
    obtain rfl := Option.some.inj (hafter.symm.trans hrow')
    exact htouched.keeps (hs id row hrow)

lemma sound_moment (calls : List Call) (n : Nat) : Sound (moment c serves calls n) :=
  exec_invariant (step c serves) (fun _ _ _ hs h => hs.step h) (fun _ _ h => by cases h) _

lemma moment_succ {n : Nat} {call : Call} (h : calls[n]? = some call) :
    moment c serves calls (n + 1) = advance (step c serves) (moment c serves calls n) call :=
  exec_take_succ (step c serves) h

variable (serves) in
lemma advance_row {s : Table} {id : Text} {row : Row} (call : Call) (hrow : s id = some row) :
    ∃ row', advance (step c serves) s call id = some row' ∧ Touched c call id row row' :=
  advance_induct (step c serves) (P := fun s' => ∃ row', s' id = some row' ∧ Touched c call id row row')
    ⟨row, hrow, .kept⟩ fun _ h => step_row h hrow

lemma moment_manifest {m n : Nat} (h : m ≤ n) {id : Text} {row : Row} (hrow : moment c serves calls m id = some row) :
    ∃ row', moment c serves calls n id = some row' ∧ row'.manifest = row.manifest := by
  refine moments_related (step c serves)
    (R := fun s s' => ∀ id row, s id = some row → ∃ row', s' id = some row' ∧ row'.manifest = row.manifest)
    (fun _ _ row h => ⟨row, h, rfl⟩) (fun _ _ _ hst htu id row h => ?_) (fun n call _ id row h => ?_) h id row hrow
  · obtain ⟨row', h', heq'⟩ := hst id row h
    obtain ⟨row'', h'', heq''⟩ := htu id row' h'
    exact ⟨row'', h'', heq''.trans heq'⟩
  · obtain ⟨row', h', htouched⟩ := advance_row serves call h
    exact ⟨row', h', htouched.manifest⟩

/-! ### Fulfilment -/

lemma signedByReceiver {authored : Nat → Bytes → Prop}
    (hunforged : ∀ pubkey message signature, c.signed pubkey message signature = true → authored pubkey message)
    {id : Text} {row : Row} {ack : FulfillmentAck} (hk : Kept id row) (h : Acknowledges c id row ack) :
    SignedByReceiver c authored row.manifest ack := by
  have hverified := h.verified
  simp only [verifyAck, bind_eq_ok, require_eq_ok] at hverified
  obtain ⟨-, -, -, hkey, hsigned⟩ := hverified
  exact ⟨h.request.trans hk.request.symm, by rw [hkey, ← hk.receiver, h.receiver], hunforged _ _ _ hsigned⟩

lemma moment_acknowledged {authored : Nat → Bytes → Prop}
    (hunforged : ∀ pubkey message signature, c.signed pubkey message signature = true → authored pubkey message)
    {n : Nat} {id : Text} {row' : Row} (hrow' : moment c serves calls (n + 1) id = some row')
    (hfulfilled : row'.status = .fulfilled)
    (hbefore : ∀ row, moment c serves calls n id = some row → row.status ≠ .fulfilled) :
    ∃ ack now, calls[n]? = some (.fulfill id ack now) ∧ SignedByReceiver c authored row'.manifest ack := by
  cases hcall : calls[n]? with
  | none =>
    rw [moment, exec_take_end (step c serves) hcall] at hrow'
    exact absurd hfulfilled (hbefore row' hrow')
  | some call =>
    rw [moment_succ hcall] at hrow'
    cases hrow : moment c serves calls n id with
    | none =>
      have hactive : row'.status = .active := by
        revert hrow'
        refine advance_induct (step c serves) (P := fun s' => s' id = some row' → row'.status = .active) ?_ ?_
        · intro hrow'
          rw [hrow] at hrow'
          cases hrow'
        · intro s' h hrow'
          exact (step_new h hrow hrow').status
      rw [hactive] at hfulfilled
      cases hfulfilled
    | some row =>
      obtain ⟨_, hafter, htouched⟩ := advance_row serves call hrow
      obtain rfl := Option.some.inj (hafter.symm.trans hrow')
      have hk := sound_moment calls n id row hrow
      cases htouched with
      | kept => exact absurd hfulfilled (hbefore row hrow)
      | archived _ => cases hfulfilled
      | reserved hactive _ _ =>
        rw [hactive] at hfulfilled
        cases hfulfilled
      | @fulfilled _ _ ack now hvalid =>
        have hsigned : SignedByReceiver c authored row.manifest ack := signedByReceiver hunforged hk hvalid
        exact ⟨ack, now, rfl, hsigned⟩

/-- What a fulfilled row keeps from one table to another. -/
def Settled (s s' : Table) : Prop := ∀ id row, s id = some row → row.status = .fulfilled →
  ∃ row', s' id = some row' ∧ row'.status = .fulfilled ∧ row'.fulfilledAt = row.fulfilledAt ∧ row'.ack = row.ack

lemma Settled.trans {s t u : Table} (hst : Settled s t) (htu : Settled t u) : Settled s u := by
  intro id row hrow hfulfilled
  obtain ⟨row', hrow', hstatus', hat', hack'⟩ := hst id row hrow hfulfilled
  obtain ⟨row'', hrow'', hstatus'', hat'', hack''⟩ := htu id row' hrow' hstatus'
  exact ⟨row'', hrow'', hstatus'', hat''.trans hat', hack''.trans hack'⟩

lemma settled_advance {s : Table} {call : Call} (hs : Sound s) (h : Repeats c s call) :
    Settled s (advance (step c serves) s call) := by
  intro id row hrow hfulfilled
  obtain ⟨row', hrow', htouched⟩ := advance_row serves call hrow
  refine ⟨row', hrow', ?_⟩
  cases htouched with
  | kept => exact ⟨hfulfilled, rfl, rfl⟩
  | archived hactive =>
    rw [hactive] at hfulfilled
    cases hfulfilled
  | reserved hactive _ _ =>
    rw [hactive] at hfulfilled
    cases hfulfilled
  | fulfilled hvalid =>
    have hack := h row hrow hfulfilled hvalid
    have hat := (hs id row hrow).acked
    rw [hack, Option.map_some] at hat
    exact ⟨rfl, hat.symm, hack.symm⟩

variable (serves) in
lemma repeats_of_settled {s : Table} {call : Call} (h : Settled s (advance (step c serves) s call)) :
    Repeats c s call := by
  cases call with
  | fulfill id ack now =>
    intro row hrow hfulfilled hvalid
    obtain ⟨row', hrow', -, -, hack⟩ := h id row hrow hfulfilled
    have hok : step c serves s (.fulfill id ack now) = .ok _ :=
      step_eq_ok.mpr ⟨.done, fulfillRequest_ok.mpr ⟨row, hrow, hvalid, rfl, rfl⟩⟩
    rw [advance_of_ok (step c serves) hok, Table.put_self] at hrow'
    obtain rfl := Option.some.inj hrow'
    exact hack.symm
  | create _ _ _ _ _ => trivial
  | archive _ _ _ => trivial
  | reserve _ _ _ => trivial
  | revokeProfile _ _ _ => trivial

/-! ### Reservations -/

lemma granted_iff {s : Table} {id intentId : Text} {now until_ : Nat} (h : Granted s id intentId now until_) :
    until_ = now + RESERVE_SECS ∧ ∃ row, s id = some row ∧ (row.status = .active ∧ ¬Expired row.manifest now) ∧
      ¬HeldByOther row intentId now := by
  obtain ⟨s', h⟩ := h
  obtain ⟨-, -, row, hrow, hpayable, hfree, hanswer, -⟩ := reserveRequest_ok.mp h
  exact ⟨Answer.reserved.inj hanswer, row, hrow, hpayable, hfree⟩

lemma granted_advance {s : Table} {id intentId : Text} {now until_ : Nat} (h : Granted s id intentId now until_) :
    ∃ row, advance (step c serves) s (.reserve id intentId now) id = some row ∧ row.reservedBy = some intentId ∧
      row.reservedUntil = some until_ := by
  obtain ⟨s', h⟩ := h
  have hok : step c serves s (.reserve id intentId now) = .ok s' := step_eq_ok.mpr ⟨_, h⟩
  obtain ⟨-, -, row, -, -, -, hanswer, rfl⟩ := reserveRequest_ok.mp h
  rw [advance_of_ok (step c serves) hok, Table.put_self, Answer.reserved.inj hanswer]
  exact ⟨_, rfl, rfl, rfl⟩

lemma reserved_shown {row : Row} {intent : Option Text} {now : Nat} (h : (requestOut row intent now).reserved = true) :
    row.status = .active ∧ ¬Expired row.manifest now := by
  obtain ⟨⟨hactive, -⟩, -⟩ := of_decide_eq_true h
  split_ifs at hactive with hexpired
  · simp at hactive
  · have hstatus : row.status = .active := by
      revert hactive
      cases row.status <;> simp [Status.text]
    exact ⟨hstatus, fun hpast => hexpired ⟨hstatus, hpast⟩⟩

lemma Forward.take {n : Nat} {t : Nat} (h : Forward (calls.take (n + 1)) t) : Forward (calls.take n) t := by
  refine List.Pairwise.sublist (List.Sublist.append_right (List.Sublist.filterMap _ ?_) [t]) h
  exact List.take_sublist_take_left (Nat.le_succ n)

lemma reserveClock_mem {k n : Nat} (hk : k < n) {id intentId : Text} {now : Nat}
    (h : calls[k]? = some (.reserve id intentId now)) : now ∈ (calls.take n).filterMap reserveClock := by
  refine List.mem_filterMap.mpr ⟨.reserve id intentId now, List.mem_of_getElem? (i := k) ?_, rfl⟩
  rw [List.getElem?_take_of_lt hk, h]

lemma promise_stands {n t : Nat} (hforward : Forward (calls.take n) t) {id intentId : Text} {until_ : Nat}
    (h : Promised c serves calls n id intentId until_) :
    (∃ row w, moment c serves calls n id = some row ∧ row.reservedBy = some intentId ∧ row.reservedUntil = some w ∧
      until_ ≤ w) ∨ ∃ now ∈ (calls.take n).filterMap reserveClock, until_ ≤ now := by
  induction n with
  | zero =>
    obtain ⟨k, now, hk, -⟩ := h
    exact absurd hk (Nat.not_lt_zero k)
  | succ n ih =>
    obtain ⟨k, now, hk, hcall, hgranted⟩ := h
    rcases Nat.lt_succ_iff_lt_or_eq.mp hk with hk | rfl
    · have hmore : ∀ x ∈ (calls.take n).filterMap reserveClock, x ∈ (calls.take (n + 1)).filterMap reserveClock :=
        fun x hx => (List.Sublist.filterMap _ (List.take_sublist_take_left (Nat.le_succ n))).subset hx
      rcases ih hforward.take ⟨k, now, hk, hcall, hgranted⟩ with ⟨row, w, hrow, hby, huntil, hle⟩ | ⟨x, hx, hle⟩
      · cases hnext : calls[n]? with
        | none =>
          refine .inl ⟨row, w, ?_, hby, huntil, hle⟩
          rw [moment, exec_take_end (step c serves) hnext]
          exact hrow
        | some call =>
          rw [moment_succ hnext]
          obtain ⟨row', hrow', htouched⟩ := advance_row serves call hrow
          cases htouched with
          | kept => exact .inl ⟨row, w, hrow', hby, huntil, hle⟩
          | archived _ => exact .inl ⟨_, w, hrow', hby, huntil, hle⟩
          | fulfilled _ => exact .inl ⟨_, w, hrow', hby, huntil, hle⟩
          | @reserved _ other _ later _ _ hfree =>
            have hlater : later ∈ (calls.take (n + 1)).filterMap reserveClock := reserveClock_mem (Nat.lt_succ_self n) hnext
            by_cases hsame : intentId = other
            · subst hsame
              have hclock : now ≤ later := by
                have hlast : (calls.take (n + 1)).filterMap reserveClock =
                    (calls.take n).filterMap reserveClock ++ [later] := by
                  rw [List.take_add_one, hnext, List.filterMap_append]
                  rfl
                rw [Forward, hlast, List.append_assoc] at hforward
                exact (List.pairwise_append.mp hforward).2.2 now (reserveClock_mem hk hcall) later
                  List.mem_cons_self
              obtain ⟨rfl, -⟩ := granted_iff hgranted
              exact .inl ⟨_, later + RESERVE_SECS, hrow', rfl, rfl, by omega⟩
            · have hpast : w ≤ later := by
                by_contra hheld
                exact hfree ⟨⟨intentId, hby, hsame⟩, w, huntil, by omega⟩
              exact .inr ⟨later, hlater, hle.trans hpast⟩
      · exact .inr ⟨x, hmore x hx, hle⟩
    · rw [moment_succ hcall]
      obtain ⟨row, hrow, hby, huntil⟩ := granted_advance hgranted
      exact .inl ⟨row, until_, hrow, hby, huntil, le_refl _⟩

lemma promises_exclude {n t : Nat} (hforward : Forward (calls.take n) t) {id i j : Text} {u v : Nat}
    (hi : Promised c serves calls n id i u) (hj : Promised c serves calls n id j v) (hu : t < u) (hv : t < v) : i = j := by
  have hpast : ∀ x ∈ (calls.take n).filterMap reserveClock, x ≤ t := fun x hx =>
    (List.pairwise_append.mp hforward).2.2 x hx t List.mem_cons_self
  have hstands : ∀ {k : Text} {w : Nat}, Promised c serves calls n id k w → t < w →
      ∃ row, moment c serves calls n id = some row ∧ row.reservedBy = some k := by
    intro k w hk hw
    rcases promise_stands hforward hk with ⟨row, _, hrow, hby, -, -⟩ | ⟨x, hx, hle⟩
    · exact ⟨row, hrow, hby⟩
    · have := hpast x hx
      omega
  obtain ⟨row, hrow, hby⟩ := hstands hi hu
  obtain ⟨row', hrow', hby'⟩ := hstands hj hv
  obtain rfl := Option.some.inj (hrow.symm.trans hrow')
  exact Option.some.inj (hby.symm.trans hby')

/-- Requests keep their lifecycle through a run exactly when no fulfilled request is acknowledged anew. -/
theorem request_lifecycle (c : Crypto) (serves : Namespace → Bool) (authored : Nat → Bytes → Prop)
    (hunforged : ∀ pubkey message signature, c.signed pubkey message signature = true → authored pubkey message)
    (calls : List Call) :
    Lifecycle c serves authored calls ↔ Along (step c serves) (Repeats c) empty calls := by
  rw [along_getElem]
  constructor
  · intro h n call hcall
    refine repeats_of_settled serves fun id row hrow hfulfilled => ?_
    have hlater := h.settled n (n + 1) (Nat.le_succ n) id row hrow hfulfilled
    rwa [moment_succ hcall] at hlater
  · intro h
    refine ⟨fun m n hmn id row hrow => moment_manifest hmn hrow,
      fun n id row' hrow' hfulfilled hbefore => moment_acknowledged hunforged hrow' hfulfilled hbefore,
      fun m n hmn => ?_, ?_, ?_, ?_, ?_⟩
    · refine moments_related (step c serves) (R := Settled) (fun _ _ row hrow hf => ⟨row, hrow, hf, rfl, rfl⟩)
        (fun _ _ _ => Settled.trans) (fun k call hcall => ?_) hmn
      exact settled_advance (sound_moment calls k) (h k call hcall)
    · intro n id intentId now until_ _ hgranted
      obtain ⟨-, row, hrow, hpayable, -⟩ := granted_iff hgranted
      exact ⟨row, hrow, hpayable⟩
    · exact fun n id row intent now _ hreserved => reserved_shown hreserved
    · intro n id intentId now until_ row _ hgranted hrow holder hholder u hu hlive
      obtain ⟨-, row', hrow', -, hfree⟩ := granted_iff hgranted
      obtain rfl := Option.some.inj (hrow.symm.trans hrow')
      by_contra hother
      exact hfree ⟨⟨holder, hholder, hother⟩, u, hu, hlive⟩
    · exact fun n t hforward id i j u v hi hj hu hv => promises_exclude hforward hi hj hu hv

end Runs

/-! ### A request acknowledged twice -/

section Sample

def sampleId : Text := "abcdefghijklmnopqrstuvwx".toList

def sampleManifest : RequestManifest where
  version := 2
  requestId := sampleId
  namespaceId := 1
  receiverAccount := accountId sampleCrypto 1 4
  receiverEncKey := 3
  amount := 500
  title := "Invoice".toList
  displayName := "Ada".toList
  receiverAddress := "0x00000000000000000000000000000000000000aa".toList
  reference := none
  expiresAt := none
  createdAt := 1000
  signerPubkey := 4
  signature := 4

def ackAt (position claimedAt : Nat) : FulfillmentAck :=
  ⟨sampleId, 1, accountId sampleCrypto 1 4, position, claimedAt, 4, 4⟩

def sampleAuthored (pubkey : Nat) (message : Bytes) : Prop :=
  ∃ signature, sampleCrypto.signed pubkey message signature = true

def paidCalls : List Call :=
  [.create (.ok "0xaa".toList) sampleManifest (.ok true) 1000 1000, .reserve sampleId "intent-1".toList 1100,
    .fulfill sampleId (ackAt 5 1200) 1201]

def acknowledgedTwice : List Call := paidCalls ++ [.fulfill sampleId (ackAt 6 1300) 1301]

def servesAll : Namespace → Bool := fun _ => true

lemma paidCalls_repeats : Along (step sampleCrypto servesAll) (Repeats sampleCrypto) empty paidCalls := by
  refine ⟨trivial, trivial, fun row hrow hfulfilled _ => ?_, trivial⟩
  have hactive : (moment sampleCrypto servesAll paidCalls 2 sampleId).map Row.status = some .active := by decide +kernel
  have hstatus : some row.status = some .active := (congrArg (Option.map Row.status) hrow).symm.trans hactive
  rw [hfulfilled] at hstatus
  cases hstatus

theorem request_lifecycle_paid : Lifecycle sampleCrypto servesAll sampleAuthored paidCalls :=
  (request_lifecycle sampleCrypto servesAll sampleAuthored (fun _ _ signature h => ⟨signature, h⟩) paidCalls).mpr
    paidCalls_repeats

/-- A second acknowledgement of the same receiver takes the place of the first. -/
theorem second_ack_replaces : ¬Lifecycle sampleCrypto servesAll sampleAuthored acknowledgedTwice := by
  intro h
  have hfirst : (moment sampleCrypto servesAll acknowledgedTwice 3 sampleId).map (fun row => (row.status, row.ack)) =
      some (.fulfilled, some (ackAt 5 1200)) := by decide +kernel
  have hsecond : (moment sampleCrypto servesAll acknowledgedTwice 4 sampleId).map Row.ack =
      some (some (ackAt 6 1300)) := by decide +kernel
  obtain ⟨row, hrow, heq⟩ := Option.map_eq_some_iff.mp hfirst
  obtain ⟨hstatus, hack⟩ := Prod.mk.inj heq
  obtain ⟨row', hrow', -, -, hsame⟩ := h.settled 3 4 (by decide) sampleId row hrow hstatus
  rw [hrow', Option.map_some, hsame, hack] at hsecond
  revert hsecond
  decide +kernel

end Sample

end Peal.Links.PaymentRequests
