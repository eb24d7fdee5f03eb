import Peal.Actions.IntentDigest
import Peal.Coordinator.Tables
import Peal.Links.HexText

namespace Peal.Coordinator.Digest
open Peal.Fallible Peal.Eip712 Peal.Keccak
open Peal.Links (hexDecode toLeBytes word_padded word_injective)
open Peal.Actions (IntentEnvelope Hex hexText hexReading intentDigest validateEnvelope isHex32)

/-! # The digest the coordinator recomputes for an intent -/

def DOMAIN_TYPE : Text := "EIP712Domain(string name,string version,uint256 chainId)".toList

def DOMAIN_NAME : Text := "Peal Private Actions".toList

def DOMAIN_VERSION : Text := "1".toList

def INTENT_TYPE : Text :=
  "Intent(uint16 protocolVersion,string intentId,bytes32 encryptionKeyId,bytes32 ciphertextHash,string nonce,uint64 expiresAt,uint256 executionDomain)".toList

def keccak (parts : List Bytes) : Bytes := keccak256 parts.flatten

/-- A `u128` in 32 bytes. -/
def wordU128 (v : Nat) : Bytes := List.replicate 16 0 ++ (toLeBytes 16 v).reverse

def domainSeparator (chainId : BitVec 64) : Bytes :=
  keccak [keccak [Utf8.encode DOMAIN_TYPE], keccak [Utf8.encode DOMAIN_NAME], keccak [Utf8.encode DOMAIN_VERSION],
    wordU128 chainId.toNat]

def bytes32 (hex : Text) : Option Bytes := (hexDecode hex).filter (·.length = 32)

/-- What `intent_digest` is called with. -/
structure Fields where
  protocolVersion : BitVec 16
  intentId : Text
  encryptionKeyId : Text
  ciphertextHash : Text
  nonce : Text
  expiresAt : BitVec 64
  executionDomain : BitVec 64
  deriving DecidableEq, Repr

def intentStruct (f : Fields) (key ciphertext : Bytes) : List Bytes :=
  [keccak [Utf8.encode INTENT_TYPE], wordU128 f.protocolVersion.toNat, keccak [Utf8.encode f.intentId], key, ciphertext,
    keccak [Utf8.encode f.nonce], wordU128 f.expiresAt.toNat, wordU128 f.executionDomain.toNat]

/-- The expiry is a signed number, and a negative one has no digest. -/
def Fields.digest (f : Fields) : Option Bytes := do
  guard (0 ≤ f.expiresAt.toInt)
  let key ← bytes32 f.encryptionKeyId
  let ciphertext ← bytes32 f.ciphertextHash
  return keccak [[0x19, 0x01], domainSeparator f.executionDomain, keccak (intentStruct f key ciphertext)]

/-- The fields of an envelope, where its numbers are ones the parameters hold. -/
structure Carries (env : IntentEnvelope) (f : Fields) : Prop where
  protocolVersion : env.protocolVersion = f.protocolVersion.toNat
  intentId : env.intentId = f.intentId
  encryptionKeyId : env.encryptionKeyId = f.encryptionKeyId
  ciphertextHash : env.ciphertextHash = f.ciphertextHash
  nonce : env.nonce = f.nonce
  expiresAt : env.expiresAt = f.expiresAt.toInt
  executionDomain : env.executionDomain = f.executionDomain.toNat

/-- The vector the two sides are pinned to. -/
example : (Fields.digest ⟨1, "intent-test-0001".toList, (List.replicate 32 "11".toList).flatten,
    (List.replicate 32 "ab".toList).flatten, "nonce-test-0001".toList, 1893456000, 560048⟩).map Links.hexEncode =
    some "ac039d74344b84f7dc88be984299c64d0f2719042910195e2143fe90788dace6".toList := by decide +kernel

section Agreement

variable {env : IntentEnvelope} {f : Fields} {nowSecs : Int} {hashTypedData : Eip712.TypedData → Option Bytes}

lemma wordU128_eq {v : Nat} (h : v < 2 ^ 64) : wordU128 v = word v := word_padded rfl (h.trans (by decide))

lemma bytes32_of_isHex32 {s : Text} (h : isHex32 s = true) :
    ∃ bytes, bytes32 s = some bytes ∧ hexReading.bytes (Actions.as0x s) = some bytes ∧ bytes.length = 32 ∧
      Links.hexEncode bytes = s := by
  obtain ⟨bytes, hbytes, hlength, htext⟩ := Actions.isHex32_decode h
  refine ⟨bytes, ?_, Actions.hexBytes_as0x h hbytes, hlength, htext⟩
  simp [bytes32, hbytes, hlength]

lemma keccak_text (s : Text) : keccak [Utf8.encode s] = textHash keccak256 s := by
  rw [keccak, List.flatten_singleton, textHash]

lemma keccak_struct (type : Text) (words : List Bytes) :
    structHash keccak256 type words = keccak (textHash keccak256 type :: words) := by
  rw [structHash, keccak, List.flatten_cons]

lemma keccak_seal (separator message : Bytes) :
    seal_ keccak256 separator message = keccak [[0x19, 0x01], separator, message] := by
  rw [seal_, keccak, List.flatten_cons, List.flatten_cons, List.flatten_singleton, List.append_assoc]

lemma domainSeparator_eq (chainId : BitVec 64) :
    hashDomain keccak256 hexReading ⟨some DOMAIN_NAME, some DOMAIN_VERSION, some (chainId.toNat : Int), none⟩ =
      some (domainSeparator chainId) := by
  have hchain : (chainId.toNat : Int) < 2 ^ 256 := by
    have hlt := chainId.isLt
    omega
  rw [hashDomain_eq _ _ ⟨Int.natCast_nonneg _, hchain⟩, keccak_struct, Int.toNat_natCast,
    ← wordU128_eq (show chainId.toNat < 2 ^ 64 from chainId.isLt), domainSeparator, keccak_text, keccak_text,
    keccak_text]
  rfl

lemma eip712_digest (h : validateEnvelope env nowSecs = .ok ()) (hf : Carries env f)
    (hexpiry : 0 ≤ f.expiresAt.toInt) : ∃ d, f.digest = some d ∧ env.eip712.digest keccak256 hexReading = some d := by
  obtain ⟨-, hciphertext, hkey, -⟩ := Actions.validateEnvelope_eq_ok h
  obtain ⟨key, hkeyRaw, hkeyRead, hkeyLength, -⟩ := bytes32_of_isHex32 hkey
  obtain ⟨ciphertext, hctRaw, hctRead, hctLength, -⟩ := bytes32_of_isHex32 hciphertext
  have hexpires : f.expiresAt.toInt = (f.expiresAt.toNat : Int) := by
    rw [BitVec.toInt_eq_toNat_cond] at hexpiry ⊢
    have hlt := f.expiresAt.isLt
    split_ifs at hexpiry ⊢ <;> omega
  have hversion := f.protocolVersion.isLt
  have hexpiresLt := f.expiresAt.isLt
  have hdomainLt := f.executionDomain.isLt
  have hv : encodeField keccak256 hexReading (.uint 16) (.number env.protocolVersion) =
      some (wordU128 f.protocolVersion.toNat) := by
    rw [hf.protocolVersion, encodeField_uint (by omega), Int.toNat_natCast, wordU128_eq (by omega)]
  have hx : encodeField keccak256 hexReading (.uint 64) (.number env.expiresAt) =
      some (wordU128 f.expiresAt.toNat) := by
    rw [hf.expiresAt, hexpires, encodeField_uint (by omega), Int.toNat_natCast, wordU128_eq (by omega)]
  have hd : encodeField keccak256 hexReading (.uint 256) (.number env.executionDomain) =
      some (wordU128 f.executionDomain.toNat) := by
    rw [hf.executionDomain, encodeField_uint (by omega), Int.toNat_natCast, wordU128_eq (by omega)]
  have hk : encodeField keccak256 hexReading .bytes32 (.hex (Actions.as0x env.encryptionKeyId)) = some key :=
    encodeField_bytes32 hkeyRead hkeyLength
  have hc : encodeField keccak256 hexReading .bytes32 (.hex (Actions.as0x env.ciphertextHash)) = some ciphertext :=
    encodeField_bytes32 hctRead hctLength
  have hdata : encodeData keccak256 hexReading Actions.INTENT_TYPES env.eip712.message =
      some [wordU128 f.protocolVersion.toNat, textHash keccak256 f.intentId, key, ciphertext,
        textHash keccak256 f.nonce, wordU128 f.expiresAt.toNat, wordU128 f.executionDomain.toNat] := by
    rw [← hf.intentId, ← hf.nonce]
    refine encodeData_cons ?_ hv (encodeData_cons ?_ (encodeField_string env.intentId) (encodeData_cons ?_ hk
      (encodeData_cons ?_ hc (encodeData_cons ?_ (encodeField_string env.nonce) (encodeData_cons ?_ hx
        (encodeData_cons ?_ hd rfl))))))
    all_goals simp [IntentEnvelope.eip712, Actions.intentMessage, List.lookup_cons]
  have htype : encodeType "Intent" Actions.INTENT_TYPES = INTENT_TYPE := by decide +kernel
  have hmessage : hashStruct keccak256 hexReading "Intent" Actions.INTENT_TYPES env.eip712.message =
      some (keccak (intentStruct f key ciphertext)) := by
    unfold hashStruct
    rw [htype, hdata, Option.map_some, keccak_struct, intentStruct, keccak_text, keccak_text, keccak_text]
  have hseparator := domainSeparator_eq f.executionDomain
  rw [← hf.executionDomain] at hseparator
  refine ⟨keccak [[0x19, 0x01], domainSeparator f.executionDomain, keccak (intentStruct f key ciphertext)], ?_, ?_⟩
  · unfold Fields.digest
    rw [← hf.encryptionKeyId, ← hf.ciphertextHash, hkeyRaw, hctRaw]
    simp only [hexpiry, guard_true, Option.pure_def, Option.bind_eq_bind, Option.bind_some]
  · have hwhole : env.eip712.digest keccak256 hexReading =
        (hashDomain keccak256 hexReading ⟨some DOMAIN_NAME, some DOMAIN_VERSION, some env.executionDomain, none⟩).bind
          fun separator => (hashStruct keccak256 hexReading "Intent" Actions.INTENT_TYPES env.eip712.message).bind
            fun message => some (seal_ keccak256 separator message) := rfl
    rw [hwhole, hseparator, hmessage, Option.bind_some, Option.bind_some, keccak_seal]

/-- Where the parameters hold the numbers of an accepted envelope, the coordinator and the agent have one digest. -/
theorem digest_agrees (hviem : Computes keccak256 hexReading hashTypedData)
    (h : validateEnvelope env nowSecs = .ok ()) (hf : Carries env f) :
    intentDigest hashTypedData env = f.digest.map hexText := by
  unfold intentDigest
  by_cases hexpiry : 0 ≤ f.expiresAt.toInt
  · obtain ⟨d, hd, htyped⟩ := eip712_digest h hf hexpiry
    rw [hviem.digests _ d htyped, hd]
  · have hoverflow : env.eip712.Overflows := by
      refine ⟨⟨"expiresAt", .uint 64⟩, ?_, 64, env.expiresAt, rfl, ?_, ?_⟩
      · simp [IntentEnvelope.eip712, Actions.INTENT_TYPES]
      · simp [IntentEnvelope.eip712, Actions.intentMessage, List.lookup_cons]
      · rw [hf.expiresAt]
        exact fun hfits => hexpiry hfits.1
    rw [hviem.refuses _ hoverflow]
    unfold Fields.digest
    simp [hexpiry]

end Agreement

section Binding

variable {f g : Fields} {d : Bytes}

/-- The strings a digest hashes besides those that are always the same. -/
def Fields.preimages (f : Fields) : List Bytes :=
  match bytes32 f.encryptionKeyId, bytes32 f.ciphertextHash with
  | some key, some ciphertext => [Utf8.encode f.intentId, Utf8.encode f.nonce, (intentStruct f key ciphertext).flatten,
      [[0x19, 0x01], domainSeparator f.executionDomain, keccak (intentStruct f key ciphertext)].flatten]
  | _, _ => []

/-- One value in each of the seven fields, the two in hexadecimal by the bytes they spell. -/
structure Same (f g : Fields) : Prop where
  protocolVersion : f.protocolVersion = g.protocolVersion
  intentId : f.intentId = g.intentId
  encryptionKeyId : hexDecode f.encryptionKeyId = hexDecode g.encryptionKeyId
  ciphertextHash : hexDecode f.ciphertextHash = hexDecode g.ciphertextHash
  nonce : f.nonce = g.nonce
  expiresAt : f.expiresAt = g.expiresAt
  executionDomain : f.executionDomain = g.executionDomain

lemma digest_eq_some (h : f.digest = some d) : ∃ key ciphertext, bytes32 f.encryptionKeyId = some key ∧
    bytes32 f.ciphertextHash = some ciphertext ∧
      keccak [[0x19, 0x01], domainSeparator f.executionDomain, keccak (intentStruct f key ciphertext)] = d := by
  unfold Fields.digest at h
  simp only [Option.bind_eq_bind, Option.bind_eq_some_iff, Option.pure_def, Option.some.injEq] at h
  obtain ⟨-, -, key, hkey, ciphertext, hciphertext, hd⟩ := h
  exact ⟨key, ciphertext, hkey, hciphertext, hd⟩

lemma bytes32_eq_some {hex : Text} {bytes : Bytes} (h : bytes32 hex = some bytes) :
    hexDecode hex = some bytes ∧ bytes.length = 32 := by
  simpa [bytes32, Option.filter_eq_some_iff] using h

lemma wordU128_length (v : Nat) : (wordU128 v).length = 32 := by
  simp [wordU128, Links.toLeBytes_length]

lemma wordU128_injective {v w : Nat} (hv : v < 2 ^ 64) (hw : w < 2 ^ 64) (h : wordU128 v = wordU128 w) : v = w := by
  rw [wordU128_eq hv, wordU128_eq hw] at h
  exact word_injective (hv.trans (by decide)) (hw.trans (by decide)) h

lemma keccak_length (parts : List Bytes) : (keccak parts).length = 32 := keccak256_length _

lemma intentStruct_length (f : Fields) {key ciphertext : Bytes} (hkey : key.length = 32)
    (hciphertext : ciphertext.length = 32) : ∀ w ∈ intentStruct f key ciphertext, w.length = 32 := by
  intro w hw
  simp only [intentStruct, List.mem_cons, List.not_mem_nil, or_false] at hw
  rcases hw with rfl | rfl | rfl | rfl | rfl | rfl | rfl | rfl
  · exact keccak_length _
  · exact wordU128_length _
  · exact keccak_length _
  · exact hkey
  · exact hciphertext
  · exact keccak_length _
  · exact wordU128_length _
  · exact wordU128_length _

/-- Where the hash does not collide on what is hashed, a digest is of one value in each field. -/
theorem digest_binds (hf : f.digest = some d) (hg : g.digest = some d)
    (hinj : Set.InjOn keccak256 {x | x ∈ f.preimages ∨ x ∈ g.preimages}) : Same f g := by
  obtain ⟨key, ciphertext, hkey, hciphertext, hd⟩ := digest_eq_some hf
  obtain ⟨key', ciphertext', hkey', hciphertext', hd'⟩ := digest_eq_some hg
  have hfpre : f.preimages = [Utf8.encode f.intentId, Utf8.encode f.nonce, (intentStruct f key ciphertext).flatten,
      [[0x19, 0x01], domainSeparator f.executionDomain, keccak (intentStruct f key ciphertext)].flatten] := by
    simp only [Fields.preimages, hkey, hciphertext]
  have hgpre : g.preimages = [Utf8.encode g.intentId, Utf8.encode g.nonce, (intentStruct g key' ciphertext').flatten,
      [[0x19, 0x01], domainSeparator g.executionDomain, keccak (intentStruct g key' ciphertext')].flatten] := by
    simp only [Fields.preimages, hkey', hciphertext']
  -- A hash of one string of each digest tells the strings apart.
  have happly : ∀ i x y, f.preimages[i]? = some x → g.preimages[i]? = some y → keccak256 x = keccak256 y → x = y :=
    fun i x y hx hy heq => hinj (.inl (List.mem_of_getElem? hx)) (.inr (List.mem_of_getElem? hy)) heq
  rw [hfpre, hgpre] at happly
  have houter := happly 3 _ _ rfl rfl (hd.trans hd'.symm)
  have hstructs : keccak (intentStruct f key ciphertext) = keccak (intentStruct g key' ciphertext') := by
    simp only [List.flatten_cons, List.flatten_nil, List.append_nil, List.append_cancel_left_eq] at houter
    exact (List.append_inj houter ((keccak_length _).trans (keccak_length _).symm)).2
  have hwords := words_injective (intentStruct_length f (bytes32_eq_some hkey).2 (bytes32_eq_some hciphertext).2)
    (intentStruct_length g (bytes32_eq_some hkey').2 (bytes32_eq_some hciphertext').2) rfl
    (happly 2 _ _ rfl rfl hstructs)
  simp only [intentStruct, List.cons.injEq, true_and, and_true] at hwords
  obtain ⟨hversion, hid, rfl, rfl, hnonce, hexpires, hdomain⟩ := hwords
  have htext : ∀ (i : Nat) (s t : Text), f.preimages[i]? = some (Utf8.encode s) → g.preimages[i]? = some (Utf8.encode t) →
      keccak [Utf8.encode s] = keccak [Utf8.encode t] → s = t := by
    intro i s t hs ht heq
    rw [hfpre] at hs
    rw [hgpre] at ht
    rw [keccak_text, keccak_text] at heq
    exact Utf8.encode_injective (happly i _ _ hs ht heq)
  refine ⟨?_, ?_, ?_, ?_, ?_, ?_, ?_⟩
  · have hlt := f.protocolVersion.isLt
    have hlt' := g.protocolVersion.isLt
    exact BitVec.eq_of_toNat_eq (wordU128_injective (by omega) (by omega) hversion)
  · exact htext 0 _ _ (by rw [hfpre]; rfl) (by rw [hgpre]; rfl) hid
  · rw [(bytes32_eq_some hkey).1, (bytes32_eq_some hkey').1]
  · rw [(bytes32_eq_some hciphertext).1, (bytes32_eq_some hciphertext').1]
  · exact htext 1 _ _ (by rw [hfpre]; rfl) (by rw [hgpre]; rfl) hnonce
  · exact BitVec.eq_of_toNat_eq (wordU128_injective f.expiresAt.isLt g.expiresAt.isLt hexpires)
  · exact BitVec.eq_of_toNat_eq (wordU128_injective f.executionDomain.isLt g.executionDomain.isLt hdomain)

lemma isHex32_injective {s t : Text} (hs : isHex32 s = true) (ht : isHex32 t = true)
    (h : hexDecode s = hexDecode t) : s = t := by
  obtain ⟨bytes, hbytes, -, htext⟩ := Actions.isHex32_decode hs
  obtain ⟨bytes', hbytes', -, htext'⟩ := Actions.isHex32_decode ht
  rw [hbytes, hbytes', Option.some.injEq] at h
  rw [← htext, ← htext', h]

lemma Same.eq {env env' : IntentEnvelope} {nowSecs nowSecs' : Int} (h : Same f g) (hf : Carries env f) (hg : Carries env' g)
    (henv : validateEnvelope env nowSecs = .ok ()) (henv' : validateEnvelope env' nowSecs' = .ok ()) : f = g := by
  obtain ⟨-, hct, hkey, -⟩ := Actions.validateEnvelope_eq_ok henv
  obtain ⟨-, hct', hkey', -⟩ := Actions.validateEnvelope_eq_ok henv'
  rw [hf.ciphertextHash] at hct
  rw [hf.encryptionKeyId] at hkey
  rw [hg.ciphertextHash] at hct'
  rw [hg.encryptionKeyId] at hkey'
  obtain ⟨hversion, hid, hkeys, hcts, hnonce, hexpires, hdomain⟩ := h
  cases f
  cases g
  simp only [Fields.mk.injEq]
  exact ⟨hversion, hid, isHex32_injective hkey hkey' hkeys, isHex32_injective hct hct' hcts, hnonce, hexpires, hdomain⟩

end Binding

end Peal.Coordinator.Digest
