import Peal.Actions.Receipt
import Peal.Library.Eip712
import Peal.Library.Keccak
import Peal.Links.HexText

namespace Peal.Actions
open Peal.Fallible Peal.Eip712 Peal.Keccak
open Peal.Links (Text Bytes toDigit hexDecode hexEncode toLowercase)

/-! # The digest an agent signs for an envelope -/

def PROTOCOL_VERSION : Int := 1

def INTENT_TYPES : List Member :=
  [⟨"protocolVersion", .uint 16⟩, ⟨"intentId", .string⟩, ⟨"encryptionKeyId", .bytes32⟩, ⟨"ciphertextHash", .bytes32⟩,
    ⟨"nonce", .string⟩, ⟨"expiresAt", .uint 64⟩, ⟨"executionDomain", .uint 256⟩]

/-- The bytes that text with a leading `0x` spells. -/
def hexBytes : Text → Option Bytes
  | '0' :: 'x' :: rest => hexDecode rest
  | _ => none

/-- Addresses are read where they are in lower case; a mixed case is a checksum. -/
def hexReading : Reading where
  bytes := hexBytes
  address s := if toLowercase s = s then hexBytes s else none

def TypedDataDomain.eip712 (d : TypedDataDomain) : Eip712.Domain := ⟨some d.name, some d.version, some d.chainId, none⟩

/-- What `hashTypedData` is called with for an envelope. -/
def IntentEnvelope.eip712 (env : IntentEnvelope) : Eip712.TypedData :=
  let m := intentMessage env
  { domain := (intentDomain env.executionDomain).eip712
    primaryType := "Intent"
    members := INTENT_TYPES
    message := [("protocolVersion", .number m.protocolVersion), ("intentId", .text m.intentId),
      ("encryptionKeyId", .hex m.encryptionKeyId), ("ciphertextHash", .hex m.ciphertextHash), ("nonce", .text m.nonce),
      ("expiresAt", .number m.expiresAt), ("executionDomain", .number m.executionDomain)] }

def hexText (d : Bytes) : Hex := "0x".toList ++ hexEncode d

/-- None where the library throws. -/
def intentDigest (hashTypedData : Eip712.TypedData → Option Bytes) (env : IntentEnvelope) : Option Hex :=
  (hashTypedData env.eip712).map hexText

/-! ### What an envelope is checked for -/

def isUrlSafe (s : Text) : Bool :=
  8 ≤ s.length && s.length ≤ 64 && s.all fun c => c.isAlpha || c.isDigit || c = '_' || c = '-'

def isHex32 (s : Text) : Bool := s.length = 64 && s.all fun c => c.isDigit || ('a' ≤ c && c ≤ 'f')

def invalid (msg : Text) : Text := "invalid intent payload: ".toList ++ msg

def validateEnvelope (env : IntentEnvelope) (nowSecs : Int) : Except Text Unit := do
  require (env.protocolVersion = PROTOCOL_VERSION)
    (invalid ("unsupported protocolVersion ".toList ++ Peal.Json.decimal env.protocolVersion))
  require (isUrlSafe env.intentId = true) (invalid "intentId must be 8-64 url-safe chars".toList)
  require (isHex32 env.ciphertextHash = true) (invalid "ciphertextHash must be 32 hex bytes".toList)
  require (isHex32 env.encryptionKeyId = true) (invalid "encryptionKeyId must be 32 hex bytes".toList)
  require (isUrlSafe env.nonce = true) (invalid "nonce must be 8-64 url-safe chars".toList)
  require (isAddress env.pseudonymousSigner = true) (invalid "pseudonymousSigner must be an address".toList)
  require (0 < env.executionDomain) (invalid "executionDomain must be a chain id".toList)
  require (nowSecs < env.expiresAt) (invalid "intent has expired".toList)
  require (env.createdAt ≤ nowSecs + 300) (invalid "createdAt is in the future".toList)

section Reading

lemma toDigit_of_lower {c : Char} (h : (c.isDigit || ('a' ≤ c && c ≤ 'f')) = true) :
    (toDigit 16 c).isSome = true ∧ c.toLower = c := by
  have hascii : c.toNat < 128 := by
    simp only [Char.isDigit, ge_iff_le, Bool.or_eq_true, Bool.and_eq_true, decide_eq_true_eq] at h
    rcases h with ⟨-, hhigh⟩ | ⟨-, hhigh⟩
    · have hnat : c.toNat ≤ 57 := UInt32.le_iff_toNat_le.mp hhigh
      omega
    · have hnat : c.toNat ≤ 102 := UInt32.le_iff_toNat_le.mp hhigh
      omega
  have hall : ∀ n : Fin 128, ((Char.ofNat n).isDigit || ('a' ≤ Char.ofNat n && Char.ofNat n ≤ 'f')) = true →
      (toDigit 16 (Char.ofNat n)).isSome = true ∧ (Char.ofNat n).toLower = Char.ofNat n := by decide +kernel
  have hch := hall ⟨c.toNat, hascii⟩
  rw [Char.ofNat_toNat] at hch
  exact hch h

lemma isHex32_decode {s : Text} (h : isHex32 s = true) :
    ∃ bytes, hexDecode s = some bytes ∧ bytes.length = 32 ∧ hexEncode bytes = s := by
  unfold isHex32 at h
  simp only [Bool.and_eq_true, decide_eq_true_eq, List.all_eq_true] at h
  obtain ⟨hlength, hdigits⟩ := h
  have hall : s.all (fun ch => (toDigit 16 ch).isSome) = true :=
    List.all_eq_true.mpr fun c hc => (toDigit_of_lower (by simpa using hdigits c hc)).1
  obtain ⟨bytes, hbytes⟩ := Links.hexDecode_of_even hall (by omega)
  have hlower : toLowercase s = s := by
    unfold toLowercase
    conv_rhs => rw [← List.map_id s]
    exact List.map_congr_left fun c hc => (toDigit_of_lower (by simpa using hdigits c hc)).2
  have htext : hexEncode bytes = s := by rw [← Links.toLowercase_of_hexDecode hbytes, hlower]
  refine ⟨bytes, hbytes, ?_, htext⟩
  have hdouble : (hexEncode bytes).length = bytes.length * 2 := by
    unfold hexEncode
    simp [List.length_flatMap]
  rw [htext] at hdouble
  omega

lemma isHex32_as0x {s : Text} (h : isHex32 s = true) : as0x s = "0x".toList ++ s := by
  refine if_neg ?_
  rintro ⟨rest, rfl⟩
  unfold isHex32 at h
  simp only [Bool.and_eq_true, List.all_append] at h
  exact absurd h.2.1 (by decide)

lemma hexBytes_as0x {s : Text} {bytes : Bytes} (h : isHex32 s = true) (hbytes : hexDecode s = some bytes) :
    hexBytes (as0x s) = some bytes := by
  rw [isHex32_as0x h]
  exact hbytes

lemma validateEnvelope_eq_ok {env : IntentEnvelope} {nowSecs : Int} (h : validateEnvelope env nowSecs = .ok ()) :
    env.protocolVersion = 1 ∧ isHex32 env.ciphertextHash = true ∧ isHex32 env.encryptionKeyId = true ∧
      0 < env.executionDomain := by
  simp only [validateEnvelope, bind_eq_ok, require_eq_ok] at h
  obtain ⟨-, hversion, -, -, -, hciphertext, -, hkey, -, -, -, -, -, hdomain, -⟩ := h
  exact ⟨hversion, hciphertext, hkey, hdomain⟩

end Reading

end Peal.Actions
