import Peal.Actions.Inclusion
import Peal.Actions.Intent
import Peal.Library.JsStrings

namespace Peal.Actions
open Peal.Json Peal.Sha256
open Peal.JsStrings (toBigInt)
open Peal.Links (Text Bytes toLowercase)

/-! # What a verified receipt says about the agent's signatures -/

/-! ### What an agent signs -/

structure TypedDataDomain where
  name : Text
  version : Text
  chainId : Int
  deriving DecidableEq, Repr

structure IntentMessage where
  protocolVersion : Int
  intentId : Text
  encryptionKeyId : Hex
  ciphertextHash : Hex
  nonce : Text
  expiresAt : Int
  executionDomain : Int
  deriving DecidableEq, Repr

structure AuthorizationMessage where
  intentId : Text
  ciphertextHash : Hex
  quoteHash : Hex
  callHash : Hex
  minimumBuyAmount : Int
  deadline : Int
  submissionMode : Text
  deriving DecidableEq, Repr

inductive TypedData where
  | intent (domain : TypedDataDomain) (message : IntentMessage)
  | executionAuthorization (domain : TypedDataDomain) (message : AuthorizationMessage)
  deriving DecidableEq, Repr

def intentDomain (chainId : Int) : TypedDataDomain := ⟨"Peal Private Actions".toList, "1".toList, chainId⟩

def as0x (hex : Text) : Hex := if "0x".toList <+: hex then hex else "0x".toList ++ hex

def intentMessage (env : IntentEnvelope) : IntentMessage where
  protocolVersion := env.protocolVersion
  intentId := env.intentId
  encryptionKeyId := as0x env.encryptionKeyId
  ciphertextHash := as0x env.ciphertextHash
  nonce := env.nonce
  expiresAt := env.expiresAt
  executionDomain := env.executionDomain

def IntentEnvelope.typedData (env : IntentEnvelope) : TypedData :=
  .intent (intentDomain env.executionDomain) (intentMessage env)

def isBytes (size : Nat) (v : Text) : Bool := isHexData v && v.length == 2 + 2 * size

def isUintOf (bits : Nat) (n : Int) : Bool := 0 ≤ n && n < 2 ^ bits

/-- Whether a message fits the types it is signed under. -/
def TypedData.encodes : TypedData → Bool
  | .intent domain m =>
    isUintOf 256 domain.chainId && isUintOf 16 m.protocolVersion && isBytes 32 m.encryptionKeyId &&
      isBytes 32 m.ciphertextHash && isUintOf 64 m.expiresAt && isUintOf 256 m.executionDomain
  | .executionAuthorization domain m =>
    isUintOf 256 domain.chainId && isBytes 32 m.ciphertextHash && isBytes 32 m.quoteHash && isBytes 32 m.callHash &&
      isUintOf 256 m.minimumBuyAmount && isUintOf 64 m.deadline

/-- The check of a signature against an address; none when it throws. -/
abbrev VerifyTypedData := Hex → TypedData → Hex → Option Bool

/-- An empty signature counts as none. -/
def verifyIntentSignature (verify : VerifyTypedData) (env : IntentEnvelope) : Bool :=
  match env.signature with
  | none => false
  | some signature =>
    !signature.isEmpty && (verify env.pseudonymousSigner env.typedData signature).getD false

def sha256Hex (data : Bytes) : Text := toHex (sha256 data)

/-- The hash a receipt carries of an authorization. -/
def authorizationHash (msg : AuthorizationMessage) : Text :=
  sha256Hex (utf8 (canonicalize (.obj
    [ ("intentId".toList, .str msg.intentId),
      ("ciphertextHash".toList, .str msg.ciphertextHash),
      ("quoteHash".toList, .str msg.quoteHash),
      ("callHash".toList, .str msg.callHash),
      ("minimumBuyAmount".toList, .str (Peal.Json.decimal msg.minimumBuyAmount)),
      ("deadline".toList, .num msg.deadline),
      ("submissionMode".toList, .str msg.submissionMode) ])))

/-! ### Receipts -/

inductive SubmissionMode where
  | private_
  | solver
  | publicRpc
  | simulated
  deriving DecidableEq, Repr

inductive ExecutionStatus where
  | settled
  | failed
  | expired
  | cancelled
  deriving DecidableEq, Repr

structure Receipt extends ExecutionReceipt where
  receiptVersion : Int
  protocolVersion : Int
  agentIdentity : Hex
  agentSignature : Hex
  nonce : Text
  expiresAt : Int
  executionDomain : Int
  executorCommitmentSignature : Text
  revealTimestamp : Int
  threshold : Int
  committeeSize : Int
  operatorIdentities : List Int
  shareCommitments : List Text
  revealedPayloadHash : Text
  adapterId : Text
  adapterVersion : Text
  quoteHash : Text
  executionAuthorizationHash : Text
  authorizationSignature : Option Hex
  submissionMode : SubmissionMode
  executionStatus : ExecutionStatus
  settledBuyAmount : Option Text
  minimumBuyAmount : Text
  receiptSignature : Option Text
  deriving DecidableEq, Repr

structure VerifyOptions where
  verifyExecutorCommitment : Option (Receipt → Bool)
  verifyReceiptSignature : Option (Receipt → Bool)
  trustedExecutors : Option (List Text)

structure VerificationReport where
  ok : Bool
  checks : List CheckResult
  deriving DecidableEq, Repr

def RECEIPT_VERSION : Int := 1

def Receipt.envelope (r : Receipt) : IntentEnvelope where
  protocolVersion := r.protocolVersion
  intentId := r.intentId
  encryptionKeyId := r.encryptionKeyId
  ciphertextHash := r.ciphertextHash
  nonce := r.nonce
  createdAt := 0
  expiresAt := r.expiresAt
  pseudonymousSigner := r.agentIdentity
  executionDomain := r.executionDomain
  signature := some r.agentSignature

def versionCheck (r : Receipt) : CheckResult where
  name := "receiptVersion"
  ok := r.receiptVersion == RECEIPT_VERSION
  detail := if r.receiptVersion = RECEIPT_VERSION then none else some ("expected " ++ toString RECEIPT_VERSION)

def agentCheck (verify : VerifyTypedData) (r : Receipt) : CheckResult :=
  ⟨"agentSignature", verifyIntentSignature verify r.envelope, none⟩

/-- A check left to the caller; without the caller's function it fails. -/
def suppliedCheck (name missing : String) (verifier : Option (Receipt → Bool)) (r : Receipt) : CheckResult :=
  match verifier with
  | some verifies => ⟨name, verifies r, none⟩
  | none => ⟨name, false, some missing⟩

def trustChecks (opts : VerifyOptions) (r : Receipt) : List CheckResult :=
  match opts.trustedExecutors with
  | some executors =>
    [⟨"executorTrusted", decide (toLowercase r.executorIdentity ∈ executors.map toLowercase), none⟩]
  | none => []

def orderCheck (r : Receipt) : CheckResult where
  name := "commitmentPrecedesReveal"
  ok := 0 < r.commitmentTimestamp && 0 < r.revealTimestamp && r.commitmentTimestamp < r.revealTimestamp
  detail := some ("committed " ++ toString r.commitmentTimestamp ++ ", revealed " ++ toString r.revealTimestamp)

def thresholdCheck (r : Receipt) : CheckResult :=
  let distinct := r.operatorIdentities.dedup
  { name := "thresholdEvidence"
    ok := 0 < r.threshold && r.threshold ≤ r.committeeSize && distinct.length == r.operatorIdentities.length &&
      r.threshold ≤ distinct.length && r.shareCommitments.length == r.operatorIdentities.length
    detail := some (toString distinct.length ++ " distinct of " ++ toString r.operatorIdentities.length ++
      " claimed, need " ++ toString r.threshold) }

def floorChecks (r : Receipt) : List CheckResult :=
  if r.executionStatus = .settled then
    match r.settledBuyAmount with
    | none => [⟨"quoteHonouredFloor", false, some "settledBuyAmount missing"⟩]
    | some settled =>
      match toBigInt settled, toBigInt r.minimumBuyAmount with
      | some got, some floor =>
        [⟨"quoteHonouredFloor", floor ≤ got,
          some ("got " ++ String.ofList settled ++ ", floor " ++ String.ofList r.minimumBuyAmount)⟩]
      | _, _ => [⟨"quoteHonouredFloor", false, some "amounts are not decimal integers"⟩]
  else []

def isDigestText (s : Text) : Bool := s.length == 64 && s.all fun c => c.isDigit || ('a' ≤ c && c ≤ 'f')

/-- Outside a simulation the authorization is asked to be there, not to be the agent's. -/
def authorizationCheck (r : Receipt) : CheckResult :=
  if r.submissionMode = .simulated then
    ⟨"executionAuthorization", true, some "simulated: no on-chain authorization"⟩
  else
    let authOk := (r.authorizationSignature.any fun s => !s.isEmpty) && isDigestText r.executionAuthorizationHash
    ⟨"executionAuthorization", authOk,
      if authOk then none else some "a non-simulated execution must carry an agent authorization"⟩

/-- The checks after the agent's signature. -/
def laterChecks (opts : VerifyOptions) (r : Receipt) : List CheckResult :=
  inclusionChecks r.toExecutionReceipt ++
    [suppliedCheck "executorCommitmentSignature" "no verifier supplied; commitment unchecked"
      opts.verifyExecutorCommitment r] ++
    trustChecks opts r ++ [orderCheck r, thresholdCheck r] ++ floorChecks r ++ [authorizationCheck r] ++
    [suppliedCheck "receiptSignature" "no verifier supplied; receipt integrity unchecked"
      opts.verifyReceiptSignature r]

def verifyReceipt (verify : VerifyTypedData) (opts : VerifyOptions) (r : Receipt) : VerificationReport :=
  let checks := versionCheck r :: agentCheck verify r :: laterChecks opts r
  ⟨checks.all fun c => c.ok, checks⟩

/-! ### Soundness -/

/-- Who has signed what, beside the functions that check it. -/
structure Signatures where
  verifyTypedData : VerifyTypedData
  signed : Hex → TypedData → Prop
  executorSigned : Receipt → Prop
  coordinatorSigned : Receipt → Prop

/-- Signatures cannot be forged, and the caller's functions accept only what was signed. -/
structure Signatures.Honest (w : Signatures) (opts : VerifyOptions) : Prop where
  unforgeable : ∀ address data signature, w.verifyTypedData address data signature = some true → w.signed address data
  encodes : ∀ address data signature, w.verifyTypedData address data signature = some true →
    isAddress address = true ∧ data.encodes = true
  executor : ∀ verifies, opts.verifyExecutorCommitment = some verifies → ∀ r, verifies r = true → w.executorSigned r
  coordinator : ∀ verifies, opts.verifyReceiptSignature = some verifies → ∀ r, verifies r = true →
    w.coordinatorSigned r

/-- The agent signed an authorization of the receipt's intent, quote and transaction at the receipt's floor. -/
def Signatures.Authorized (w : Signatures) (r : Receipt) : Prop :=
  ∃ msg, w.signed r.agentIdentity (.executionAuthorization (intentDomain r.executionDomain) msg) ∧
    msg.intentId = r.intentId ∧ msg.quoteHash = as0x r.quoteHash ∧
    authorizationHash msg = r.executionAuthorizationHash ∧ toBigInt r.minimumBuyAmount = some msg.minimumBuyAmount

/-- Nothing but the agent's signature on the envelope is missing. -/
def Presentable (opts : VerifyOptions) (r : Receipt) : Prop :=
  r.agentSignature ≠ [] ∧ isAddress r.agentIdentity = true ∧ r.envelope.typedData.encodes = true ∧
    ∀ check ∈ versionCheck r :: laterChecks opts r, check.ok = true

instance (opts : VerifyOptions) (r : Receipt) : Decidable (Presentable opts r) := by
  unfold Presentable
  infer_instance

lemma verifyReceipt_ok {verify : VerifyTypedData} {opts : VerifyOptions} {r : Receipt} :
    (verifyReceipt verify opts r).ok = true ↔
      verifyIntentSignature verify r.envelope = true ∧
        ∀ check ∈ versionCheck r :: laterChecks opts r, check.ok = true := by
  simp only [verifyReceipt, agentCheck, List.all_cons, Bool.and_eq_true, List.all_eq_true, List.mem_cons,
    forall_eq_or_imp]
  tauto

lemma verifyIntentSignature_envelope {verify : VerifyTypedData} {r : Receipt} :
    verifyIntentSignature verify r.envelope = true ↔
      r.agentSignature ≠ [] ∧ verify r.agentIdentity r.envelope.typedData r.agentSignature = some true := by
  simp only [verifyIntentSignature, Receipt.envelope, Bool.and_eq_true, Bool.not_eq_true', List.isEmpty_eq_false_iff]
  refine and_congr_right fun _ => ?_
  cases verify r.agentIdentity (IntentEnvelope.typedData _) r.agentSignature <;> simp

lemma Presentable.of_ok {w : Signatures} {opts : VerifyOptions} {r : Receipt} (hw : w.Honest opts)
    (h : (verifyReceipt w.verifyTypedData opts r).ok = true) :
    Presentable opts r ∧ w.signed r.agentIdentity r.envelope.typedData := by
  obtain ⟨hsignature, hchecks⟩ := verifyReceipt_ok.mp h
  obtain ⟨hne, hverify⟩ := verifyIntentSignature_envelope.mp hsignature
  obtain ⟨haddress, hencodes⟩ := hw.encodes _ _ _ hverify
  exact ⟨⟨hne, haddress, hencodes, hchecks⟩, hw.unforgeable _ _ _ hverify⟩

/-- The agent has signed the envelope of a receipt and nothing else. -/
def envelopeOnly (opts : VerifyOptions) (r : Receipt) : Signatures where
  verifyTypedData address data signature :=
    some (decide (address = r.agentIdentity ∧ data = r.envelope.typedData ∧ signature = r.agentSignature))
  signed address data := address = r.agentIdentity ∧ data = r.envelope.typedData
  executorSigned r := ∃ verifies, opts.verifyExecutorCommitment = some verifies ∧ verifies r = true
  coordinatorSigned r := ∃ verifies, opts.verifyReceiptSignature = some verifies ∧ verifies r = true

lemma envelopeOnly_honest {opts : VerifyOptions} {r : Receipt} (h : Presentable opts r) :
    (envelopeOnly opts r).Honest opts := by
  have hsigned : ∀ address data signature,
      (envelopeOnly opts r).verifyTypedData address data signature = some true →
        address = r.agentIdentity ∧ data = r.envelope.typedData ∧ signature = r.agentSignature := by
    intro address data signature hverify
    simpa [envelopeOnly] using hverify
  refine ⟨?_, ?_, ?_, ?_⟩
  · intro address data signature hverify
    obtain ⟨haddress, hdata, -⟩ := hsigned address data signature hverify
    exact ⟨haddress, hdata⟩
  · intro address data signature hverify
    obtain ⟨rfl, rfl, -⟩ := hsigned address data signature hverify
    exact ⟨h.2.1, h.2.2.1⟩
  · exact fun verifies hopt r' hr' => ⟨verifies, hopt, hr'⟩
  · exact fun verifies hopt r' hr' => ⟨verifies, hopt, hr'⟩

lemma envelopeOnly_accepts {opts : VerifyOptions} {r : Receipt} (h : Presentable opts r) :
    (verifyReceipt (envelopeOnly opts r).verifyTypedData opts r).ok = true := by
  refine verifyReceipt_ok.mpr ⟨verifyIntentSignature_envelope.mpr ⟨h.1, ?_⟩, h.2.2.2⟩
  simp [envelopeOnly]

lemma envelopeOnly_unauthorized {opts : VerifyOptions} {r : Receipt} : ¬(envelopeOnly opts r).Authorized r := by
  rintro ⟨msg, ⟨-, hdata⟩, -⟩
  cases hdata

/-- A receipt is accepted only with both of the agent's signatures exactly when it is a simulation or is refused
whatever the agent signed: the second signature is never checked. -/
theorem receipt_sound_iff (opts : VerifyOptions) (r : Receipt) :
    (∀ w : Signatures, w.Honest opts → (verifyReceipt w.verifyTypedData opts r).ok = true →
      r.submissionMode ≠ .simulated → w.signed r.agentIdentity r.envelope.typedData ∧ w.Authorized r) ↔
    r.submissionMode = .simulated ∨ ¬Presentable opts r := by
  constructor
  · intro hsound
    by_contra hneither
    obtain ⟨hmode, hpresent⟩ := not_or.mp hneither
    have hpresent : Presentable opts r := not_not.mp hpresent
    obtain ⟨-, hauthorized⟩ :=
      hsound (envelopeOnly opts r) (envelopeOnly_honest hpresent) (envelopeOnly_accepts hpresent) hmode
    exact envelopeOnly_unauthorized hauthorized
  · rintro (hsimulated | hrefused) w hw hok hmode
    · exact absurd hsimulated hmode
    · exact absurd (Presentable.of_ok hw hok).1 hrefused

/-- A live execution whose authorization is sixty-five made-up bytes. -/
def unauthorizedReceipt : Receipt where
  toExecutionReceipt := { sampleReceipt 0 with encryptionKeyId := List.replicate 64 'a' }
  receiptVersion := RECEIPT_VERSION
  protocolVersion := 1
  agentIdentity := "0x".toList ++ List.replicate 40 '5'
  agentSignature := "0x".toList ++ List.replicate 130 '6'
  nonce := "nonce_0000001".toList
  expiresAt := 1700000300
  executionDomain := 8453
  executorCommitmentSignature := "0x".toList ++ List.replicate 130 'e'
  revealTimestamp := 1700000040
  threshold := 3
  committeeSize := 5
  operatorIdentities := [1, 2, 4]
  shareCommitments := [List.replicate 64 '1', List.replicate 64 '2', List.replicate 64 '4']
  revealedPayloadHash := List.replicate 64 '8'
  adapterId := "zerox-swap-v2".toList
  adapterVersion := "1".toList
  quoteHash := List.replicate 64 '9'
  executionAuthorizationHash := List.replicate 64 '7'
  authorizationSignature := some ("0x".toList ++ List.replicate 130 'a')
  submissionMode := .private_
  executionStatus := .settled
  settledBuyAmount := some "14350000000000000000".toList
  minimumBuyAmount := "1".toList
  receiptSignature := none

def trustingOptions : VerifyOptions where
  verifyExecutorCommitment := some fun _ => true
  verifyReceiptSignature := some fun _ => true
  trustedExecutors := none

theorem authorization_unchecked :
    ¬∀ (opts : VerifyOptions) (r : Receipt) (w : Signatures), w.Honest opts →
      (verifyReceipt w.verifyTypedData opts r).ok = true → r.submissionMode ≠ .simulated →
        w.signed r.agentIdentity r.envelope.typedData ∧ w.Authorized r := by
  intro hclaim
  have hpresent : Presentable trustingOptions unauthorizedReceipt := by decide +kernel
  obtain ⟨-, hauthorized⟩ := hclaim trustingOptions unauthorizedReceipt _ (envelopeOnly_honest hpresent)
    (envelopeOnly_accepts hpresent) (by decide)
  exact envelopeOnly_unauthorized hauthorized

end Peal.Actions
