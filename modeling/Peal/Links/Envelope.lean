import Peal.Library.Fallible
import Peal.Library.Sealing
import Peal.Links.SignedPayloads

namespace Peal.Links.Envelope
open Peal.Fallible Peal.Sealing
open Peal.Actions (utf8)

/-! # Sealed receipts -/

/-- Thirty-two bytes. -/
abbrev Word32 := { b : Bytes // b.length = 32 }

abbrev Nonce24 := { b : Bytes // b.length = 24 }

/-- The curve, the key derivations and the cipher, as the crates compute them. -/
structure Crypto where
  publicKey : Word32 → Word32
  diffieHellman : Word32 → Word32 → Word32
  contributory : Word32 → Bool
  hkdf : Bytes → Word32 → Bytes → Word32
  argon2id : Nat → Nat → Nat → Bytes → Bytes → Except Text Word32
  cipher : Cipher Word32 Bytes Bytes Bytes Bytes

structure Crypto.Standard (k : Crypto) : Prop where
  agreement : ∀ a b, k.diffieHellman a (k.publicKey b) = k.diffieHellman b (k.publicKey a)
  correct : k.cipher.Correct

inductive SealError where
  | wire (detail : Text)
  | wrongNamespace
  | invalidPoint
  | badSignature
  | wallet (detail : Text)
  deriving DecidableEq, Repr

def ENVELOPE_VERSION : Nat := 1

def MAX_ENVELOPE_PLAINTEXT : Nat := 2048

structure ReceiptEnvelope where
  version : Nat
  ns : Word32
  recipient : Word32
  ephemeral : Word32
  nonce : Bytes
  ciphertext : Bytes
  deriving DecidableEq

def aad (version : Nat) (ns recipient ephemeral : Word32) : Bytes :=
  utf8 "PLKE".toList ++ version :: (ns.val ++ (recipient.val ++ ephemeral.val))

/-- What a sender draws. -/
structure Draw where
  eph : Word32
  nonce : Nonce24
  deriving DecidableEq

section Crates

variable (k : Crypto)

def deriveKey (shared : Word32) (aad : Bytes) : Word32 := k.hkdf (utf8 "peal-links/v1/receipt-envelope".toList) shared aad

def sealReceipt (ns recipient : Word32) (plaintext : Bytes) (r : Draw) : Except SealError ReceiptEnvelope := do
  require (plaintext.length ≤ MAX_ENVELOPE_PLAINTEXT) (.wire "receipt envelope plaintext too large".toList)
  let ephemeral := k.publicKey r.eph
  let shared := k.diffieHellman r.eph recipient
  require (k.contributory shared = true) .invalidPoint
  let aad := aad ENVELOPE_VERSION ns recipient ephemeral
  let key := deriveKey k shared aad
  let ciphertext ← expect (k.cipher.encrypt key r.nonce.val aad plaintext) (.wire "encryption failed".toList)
  return ⟨ENVELOPE_VERSION, ns, recipient, ephemeral, r.nonce.val, ciphertext⟩

def openReceipt (key expectedNamespace : Word32) (env : ReceiptEnvelope) : Except SealError Bytes := do
  require (env.version = ENVELOPE_VERSION) (.wire "unsupported envelope version".toList)
  require (env.ns = expectedNamespace) .wrongNamespace
  require (env.recipient = k.publicKey key) (.wire "envelope is for another recipient".toList)
  require (env.nonce.length = 24) (.wire "bad nonce".toList)
  let shared := k.diffieHellman key env.ephemeral
  require (k.contributory shared = true) .invalidPoint
  let aad := aad env.version env.ns env.recipient env.ephemeral
  let derived := deriveKey k shared aad
  expect (k.cipher.decrypt derived env.nonce aad env.ciphertext) .badSignature

/-! ## What a sender sealed -/

/-- A delivery that a sender sealed. -/
structure Sealing where
  ns : Word32
  recipient : Word32
  plaintext : Bytes
  draw : Draw

namespace Sealing

def aad (s : Sealing) : Bytes := Envelope.aad ENVELOPE_VERSION s.ns s.recipient (k.publicKey s.draw.eph)

def key (s : Sealing) : Word32 := deriveKey k (k.diffieHellman s.draw.eph s.recipient) (s.aad k)

def use (s : Sealing) : Use Word32 Bytes Bytes Bytes := ⟨s.key k, s.draw.nonce.val, s.aad k, s.plaintext⟩

def envelope (s : Sealing) : Except SealError ReceiptEnvelope := sealReceipt k s.ns s.recipient s.plaintext s.draw

end Sealing

/-- The keys that a secret between the wallet and one of the senders' ephemeral keys derives. -/
def Shared (sealings : List Sealing) (key : Word32) (derived : Word32) : Prop :=
  ∃ s ∈ sealings, ∃ info, derived = deriveKey k (k.diffieHellman key (k.publicKey s.draw.eph)) info

end Crates

/-! ## The frame -/

lemma aad_injective {v v' : Nat} {ns ns' r r' e e' : Word32} (h : aad v ns r e = aad v' ns' r' e') :
    v = v' ∧ ns = ns' ∧ r = r' ∧ e = e' := by
  unfold aad at h
  obtain ⟨hv, hrest⟩ := List.cons.inj (List.append_cancel_left h)
  obtain ⟨hns, hrest⟩ := List.append_inj hrest (ns.property.trans ns'.property.symm)
  obtain ⟨hr, he⟩ := List.append_inj hrest (r.property.trans r'.property.symm)
  exact ⟨hv, Subtype.ext hns, Subtype.ext hr, Subtype.ext he⟩

variable {k : Crypto} {ns recipient key : Word32} {plaintext : Bytes} {r : Draw} {env : ReceiptEnvelope}

lemma sealReceipt_eq_ok : sealReceipt k ns recipient plaintext r = .ok env ↔
    plaintext.length ≤ MAX_ENVELOPE_PLAINTEXT ∧ k.contributory (k.diffieHellman r.eph recipient) = true ∧
      ∃ ciphertext, k.cipher.encrypt (Sealing.key k ⟨ns, recipient, plaintext, r⟩) r.nonce.val
          (Sealing.aad k ⟨ns, recipient, plaintext, r⟩) plaintext = some ciphertext ∧
        env = ⟨ENVELOPE_VERSION, ns, recipient, k.publicKey r.eph, r.nonce.val, ciphertext⟩ := by
  unfold sealReceipt
  simp only [bind_eq_ok, require_eq_ok, expect_eq_ok, pure_eq_ok]
  constructor
  · rintro ⟨_, hsize, _, hshared, ciphertext, hencrypt, rfl⟩
    exact ⟨hsize, hshared, ciphertext, hencrypt, rfl⟩
  · rintro ⟨hsize, hshared, ciphertext, hencrypt, rfl⟩
    exact ⟨(), hsize, (), hshared, ciphertext, hencrypt, rfl⟩

lemma openReceipt_eq_ok : openReceipt k key ns env = .ok plaintext ↔
    env.version = ENVELOPE_VERSION ∧ env.ns = ns ∧ env.recipient = k.publicKey key ∧ env.nonce.length = 24 ∧
      k.contributory (k.diffieHellman key env.ephemeral) = true ∧
      k.cipher.decrypt (deriveKey k (k.diffieHellman key env.ephemeral)
          (aad env.version env.ns env.recipient env.ephemeral)) env.nonce
        (aad env.version env.ns env.recipient env.ephemeral) env.ciphertext = some plaintext := by
  unfold openReceipt
  simp only [bind_eq_ok, require_eq_ok, expect_eq_ok]
  constructor
  · rintro ⟨_, hversion, _, hns, _, hrecipient, _, hnonce, _, hshared, hdecrypt⟩
    exact ⟨hversion, hns, hrecipient, hnonce, hshared, hdecrypt⟩
  · rintro ⟨hversion, hns, hrecipient, hnonce, hshared, hdecrypt⟩
    exact ⟨(), hversion, (), hns, (), hrecipient, (), hnonce, (), hshared, hdecrypt⟩

lemma openReceipt_sealReceipt (hk : k.Standard) (hrecipient : k.publicKey key = recipient)
    (h : sealReceipt k ns recipient plaintext r = .ok env) : openReceipt k key ns env = .ok plaintext := by
  obtain ⟨-, hshared, ciphertext, hencrypt, rfl⟩ := sealReceipt_eq_ok.mp h
  have hsecret : k.diffieHellman key (k.publicKey r.eph) = k.diffieHellman r.eph recipient := by
    rw [← hrecipient]
    exact hk.agreement key r.eph
  refine openReceipt_eq_ok.mpr ⟨rfl, rfl, hrecipient.symm, r.nonce.property, ?_, ?_⟩
  · rw [hsecret]
    exact hshared
  · dsimp only
    rw [hsecret]
    exact hk.correct _ _ _ _ _ hencrypt

def wordSample (text : String) : Word32 :=
  if h : ((hexDecode text.toList).getD []).length = 32 then ⟨(hexDecode text.toList).getD [], h⟩
  else ⟨List.replicate 32 0, rfl⟩

def ephSample : Word32 := ⟨List.replicate 32 6, rfl⟩

def bobSample : Word32 := ⟨List.replicate 32 5, rfl⟩

def bobPublic : Word32 := wordSample "50a61409b1ddd0325e9b16b700e719e9772c07000b1bd7786e907c653d20495d"

def ephPublic : Word32 := wordSample "f5b2d6e60f9477e310c2982daaa6c9136c108a1777c5947e448fa37d68174557"

def keySample : Word32 := wordSample "841bff468fb348e273bcbf8ac709c12a496aaf5708323e18ceebfb3d8f9a48fd"

def deliverySample : Sealing :=
  ⟨⟨List.replicate 32 7, rfl⟩, bobPublic, utf8 "opening".toList, ⟨ephSample, ⟨List.replicate 24 8, rfl⟩⟩⟩

def logSample : List (Use Word32 Bytes Bytes Bytes × Bytes) :=
  [(⟨keySample, List.replicate 24 8, aad 1 ⟨List.replicate 32 7, rfl⟩ bobPublic ephPublic, utf8 "opening".toList⟩,
    (hexDecode "f801bc2bc298f314573d933e80da63415a45c87fe8dc88".toList).getD [])]

/-- The values of X25519, of HKDF and of XChaCha20-Poly1305 for this one delivery. -/
def cryptoSample : Crypto where
  publicKey secret := if secret = ephSample then ephPublic else if secret = bobSample then bobPublic
    else wordSample ""
  diffieHellman secret point :=
    if (secret = ephSample ∧ point = bobPublic) ∨ (secret = bobSample ∧ point = ephPublic) then
      wordSample "edfa360a9633ca9b6fe655be8849389323ae3a3444866567f463c8e2c80bbb5a"
    else wordSample ""
  contributory shared := !decide (shared = wordSample "")
  hkdf _ _ _ := keySample
  argon2id _ _ _ _ _ := .error []
  cipher := Cipher.logged logSample


lemma standardSample : cryptoSample.Standard where
  agreement := by
    intro a b
    have hkeys : bobSample ≠ ephSample := by decide +kernel
    have hpoints : ephPublic ≠ bobPublic ∧ wordSample "" ≠ bobPublic ∧ wordSample "" ≠ ephPublic := by decide +kernel
    simp only [cryptoSample]
    by_cases ha : a = ephSample <;> by_cases hb : b = ephSample <;> by_cases ha' : a = bobSample <;>
      by_cases hb' : b = bobSample <;> simp_all
  correct := Cipher.logged_correct (by decide +kernel)

end Peal.Links.Envelope
