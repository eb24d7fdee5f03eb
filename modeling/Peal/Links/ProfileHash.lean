import Peal.Actions.IntentDigest
import Peal.Links.Account
import Peal.Links.Directory
import Peal.Links.HexText

namespace Peal.Links.Directory
open Peal.Fallible Peal.Eip712 Peal.Keccak
open Peal.Actions (utf8 hexBytes hexReading hexText)
open Peal.Links.Account (PayError h32)

/-! # The hash a client takes of a receiving profile -/

def LINKS_DOMAIN_NAME : Text := "Peal Links".toList

def LINKS_DOMAIN_VERSION : Text := "1".toList

def linksDomain (chainId : Int) : Domain := ⟨some LINKS_DOMAIN_NAME, some LINKS_DOMAIN_VERSION, some chainId, none⟩

def PROFILE_TYPES : List Member :=
  [⟨"version", .uint 64⟩, ⟨"wallet", .address⟩, ⟨"chainId", .uint 256⟩, ⟨"namespace", .bytes32⟩, ⟨"account", .bytes32⟩,
    ⟨"encKey", .bytes32⟩, ⟨"profileKey", .bytes32⟩, ⟨"displayName", .string⟩, ⟨"recovery", .string⟩,
    ⟨"nonce", .bytes32⟩, ⟨"issuedAt", .uint 64⟩, ⟨"expiry", .uint 64⟩, ⟨"prev", .bytes32⟩, ⟨"revoked", .bool⟩]

structure UnsignedProfile where
  version : Int
  wallet : Text
  chainId : Int
  namespaceHex : Text
  account : Text
  encKey : Text
  profileKey : Text
  displayName : Text
  recovery : Text
  nonce : Text
  issuedAt : Int
  expiry : Int
  prev : Text
  revoked : Bool
  deriving DecidableEq, Repr

def profileTypedData (p : UnsignedProfile) : Except PayError TypedData := do
  let namespaceHex ← h32 p.namespaceHex
  let account ← h32 p.account
  let encKey ← h32 p.encKey
  let profileKey ← h32 p.profileKey
  let nonce ← h32 p.nonce
  let prev ← h32 p.prev
  return {
    domain := linksDomain p.chainId
    primaryType := "PealLinksAccount"
    members := PROFILE_TYPES
    message := [("version", .number p.version), ("wallet", .hex p.wallet), ("chainId", .number p.chainId),
      ("namespace", .hex namespaceHex), ("account", .hex account), ("encKey", .hex encKey),
      ("profileKey", .hex profileKey), ("displayName", .text p.displayName), ("recovery", .text p.recovery),
      ("nonce", .hex nonce), ("issuedAt", .number p.issuedAt), ("expiry", .number p.expiry), ("prev", .hex prev),
      ("revoked", .flag p.revoked)] }

/-- None where it throws; without the leading `0x`. -/
def profileHash (hashTypedData : TypedData → Option Bytes) (p : UnsignedProfile) : Option Text := do
  let typed ← (profileTypedData p).toOption
  let digest ← hashTypedData typed
  return (hexText digest).drop 2

/-! ### What the node accepts -/

def PROFILE_VERSION_MIN : Nat := 1

def MAX_DISPLAY_NAME : Nat := 60

/-- A field in hexadecimal, with the error it is refused with. -/
def checkHex (name : String) (v : Text) : Except String Unit :=
  ((hex32 v).mapError fun e => name ++ ": " ++ e).map fun _ => ()

def Profile.validateFields (p : Profile) : Except String Unit := do
  require (PROFILE_VERSION_MIN ≤ p.version.toNat) "version must be positive"
  require (PaymentRequests.isEvmAddress p.wallet = true) "wallet must be a lowercase 0x address"
  checkHex "namespace" p.namespaceHex
  checkHex "account" p.account
  checkHex "enc_key" p.encKey
  checkHex "profile_key" p.profileKey
  checkHex "nonce" p.nonce
  checkHex "prev" p.prev
  require (¬(Coordinator.trim p.displayName = [] ∨ MAX_DISPLAY_NAME < p.displayName.length))
    "display name must be 1 to 60 characters"
  require (p.recovery = "wallet-signature".toList ∨ p.recovery = "recovery-code".toList)
    "recovery must be wallet-signature or recovery-code"
  require (p.issuedAt.toNat < p.expiry.toNat) "expiry must be after issued_at"
  let sig ← expect (hexDecode (trimHexPrefix p.signature)) "invalid hex"
  require (sig.length = 65) "signature must be 65 bytes"

/-- The profile as the client has it. -/
structure Mirrors (q : UnsignedProfile) (p : Profile) : Prop where
  version : q.version = p.version.toNat
  wallet : q.wallet = p.wallet
  chainId : q.chainId = p.chainId.toNat
  namespaceHex : q.namespaceHex = p.namespaceHex
  account : q.account = p.account
  encKey : q.encKey = p.encKey
  profileKey : q.profileKey = p.profileKey
  displayName : q.displayName = p.displayName
  recovery : q.recovery = p.recovery
  nonce : q.nonce = p.nonce
  issuedAt : q.issuedAt = p.issuedAt.toNat
  expiry : q.expiry = p.expiry.toNat
  prev : q.prev = p.prev
  revoked : q.revoked = p.revoked

section Fields

lemma wordU64_eq (v : BitVec 64) : wordU64 v = word v.toNat := word_padded rfl (v.isLt.trans_le (by decide))

lemma utf8EncodeChar_eq (c : Char) : (String.utf8EncodeChar c).map UInt8.toNat = Utf8.encodeChar c := by
  have hlt : c.toNat < 0x110000 := by
    rcases Utf8.char_cases c with h | ⟨-, h⟩ <;> omega
  unfold String.utf8EncodeChar Utf8.encodeChar Utf8.encodeScalar
  have hval : c.val.toNat = c.toNat := rfl
  simp only [hval]
  generalize c.toNat = n at hlt
  split_ifs <;> simp only [List.map_cons, List.map_nil, UInt8.toNat_ofNat', List.cons.injEq, and_true] <;> omega

lemma utf8_eq_encode (s : List Char) : utf8 s = Utf8.encode s := by
  unfold utf8 Utf8.encode
  rw [String.toUTF8_eq_toByteArray, String.toByteArray_ofList]
  unfold List.utf8Encode
  rw [List.data_toByteArray, List.toList_toArray, List.map_flatMap]
  exact List.flatMap_congr fun c _ => utf8EncodeChar_eq c
lemma lower_hex_of_bytes {s : Text}
    (h : (utf8 s).all (fun b => (48 ≤ b && b ≤ 57) || (97 ≤ b && b ≤ 102)) = true) :
    (utf8 s).length = s.length ∧ (∀ c ∈ s, c.toLower = c) ∧ s.all (fun c => (toDigit 16 c).isSome) = true := by
  rw [utf8_eq_encode, List.all_eq_true] at h
  have hchar : ∀ c ∈ s, (48 ≤ c.toNat ∧ c.toNat ≤ 57) ∨ (97 ≤ c.toNat ∧ c.toNat ≤ 102) := by
    intro c hc
    have hbytes : ∀ b ∈ Utf8.encodeChar c, (48 ≤ b ∧ b ≤ 57) ∨ (97 ≤ b ∧ b ≤ 102) := by
      intro b hb
      simpa using h b (List.mem_flatMap.mpr ⟨c, hc, hb⟩)
    have hascii : c.toNat < 128 := by
      by_contra hlarge
      have hfirst : ∃ b ∈ Utf8.encodeChar c, 128 ≤ b := by
        unfold Utf8.encodeChar Utf8.encodeScalar
        rw [if_neg (show ¬c.toNat < 0x80 by omega)]
        split_ifs
        all_goals exact ⟨_, List.mem_cons_self, by omega⟩
      obtain ⟨b, hb, hle⟩ := hfirst
      have := hbytes b hb
      omega
    exact hbytes c.toNat (by rw [Json.encodeChar_ascii hascii]; exact List.mem_singleton_self _)
  have hall : ∀ n : Fin 103, (48 ≤ n.val ∧ n.val ≤ 57) ∨ (97 ≤ n.val ∧ n.val ≤ 102) →
      (Char.ofNat n).toLower = Char.ofNat n ∧ (toDigit 16 (Char.ofNat n)).isSome = true := by decide +kernel
  have hlower : ∀ c ∈ s, c.toLower = c ∧ (toDigit 16 c).isSome = true := by
    intro c hc
    have hin := hchar c hc
    have hch := hall ⟨c.toNat, by omega⟩ hin
    rwa [Char.ofNat_toNat] at hch
  refine ⟨?_, fun c hc => (hlower c hc).1, List.all_eq_true.mpr fun c hc => (hlower c hc).2⟩
  rw [utf8_eq_encode]
  refine Json.encode_length_ascii fun c hc => ?_
  have hin := hchar c hc
  omega

lemma wallet_read {s : Text} (h : PaymentRequests.isEvmAddress s = true) :
    ∃ raw, wordAddress s = .ok (List.replicate 12 0 ++ raw) ∧ hexReading.address s = some raw ∧ raw.length = 20 := by
  unfold PaymentRequests.isEvmAddress at h
  simp only [Bool.and_eq_true, decide_eq_true_eq] at h
  obtain ⟨⟨hlength, hprefix⟩, hbytes⟩ := h
  obtain ⟨hsame, hlower, hdigits⟩ := lower_hex_of_bytes hbytes
  have hsplit : s = '0' :: 'x' :: s.drop 2 := by
    conv_lhs => rw [← List.take_append_drop 2 s, hprefix]
    rfl
  have hforty : (s.drop 2).length = 40 := by
    rw [utf8_eq_encode, hsplit, Utf8.encode_cons, Utf8.encode_cons, List.length_append, List.length_append] at hlength
    have hzero : (Utf8.encodeChar '0').length = 1 := rfl
    have hx : (Utf8.encodeChar 'x').length = 1 := rfl
    rw [utf8_eq_encode] at hsame
    omega
  generalize s.drop 2 = digits at *
  subst hsplit
  obtain ⟨raw, hraw⟩ := hexDecode_of_even hdigits (by omega)
  have htwenty : raw.length = 20 := by
    have hdouble := congrArg List.length (toLowercase_of_hexDecode hraw)
    simp [toLowercase, hexEncode, List.length_flatMap, hforty] at hdouble
    omega
  have hself : toLowercase ('0' :: 'x' :: digits) = '0' :: 'x' :: digits := by
    have htail : toLowercase digits = digits := by
      unfold toLowercase
      conv_rhs => rw [← List.map_id digits]
      exact List.map_congr_left hlower
    show Char.toLower '0' :: Char.toLower 'x' :: toLowercase digits = _
    rw [htail]
    rfl
  refine ⟨raw, ?_, ?_, htwenty⟩
  · have htrim : trimHexPrefix ('0' :: 'x' :: digits) = digits := trimHexPrefix_hex hdigits
    unfold wordAddress
    rw [htrim, hraw]
    simp [expect, require, htwenty, bind, Except.bind, pure, Except.pure]
  · show (if toLowercase ('0' :: 'x' :: digits) = '0' :: 'x' :: digits then hexDecode digits else none) = some raw
    rw [if_pos hself, hraw]

lemma h32_read {s t : Text} (h : h32 s = .ok t) :
    ∃ b, hex32 s = .ok b ∧ hexReading.bytes t = some b ∧ b.length = 32 := by
  simp only [h32, bind_eq_ok, require_eq_ok, pure_eq_ok] at h
  obtain ⟨-, ⟨hlength, hdigits⟩, rfl⟩ := h
  have htrim : trimHexPrefix s = if ['0', 'x'].isPrefixOf s then s.drop 2 else s := by
    split_ifs at hdigits ⊢ with hprefix
    · obtain ⟨rest, rfl⟩ := List.isPrefixOf_iff_prefix.mp hprefix
      exact trimHexPrefix_hex hdigits
    · exact trimHexPrefix_hex hdigits
  generalize (if ['0', 'x'].isPrefixOf s then s.drop 2 else s) = clean at *
  obtain ⟨b, hb⟩ := hexDecode_of_even hdigits (by omega)
  have hlen : b.length = 32 := by
    have hdouble := congrArg List.length (toLowercase_of_hexDecode hb)
    simp [toLowercase, hexEncode, List.length_flatMap, hlength] at hdouble
    omega
  have hread : hexReading.bytes ('0' :: 'x' :: toLowercase clean) = some b := by
    show hexDecode (toLowercase clean) = some b
    rw [hexDecode_toLowercase, hb]
  refine ⟨b, ?_, hread, hlen⟩
  unfold hex32
  rw [htrim, hb]
  simp [expect, require, hlen, bind, Except.bind, pure, Except.pure]

end Fields

section Agreement

variable {p : Profile} {q : UnsignedProfile} {t : TypedData} {hashTypedData : TypedData → Option Bytes}

lemma domainSeparator_eq (chainId : BitVec 64) :
    hashDomain keccak256 hexReading (linksDomain chainId.toNat) = some (domainSeparator keccak256 chainId) := by
  have hchain : (chainId.toNat : Int) < 2 ^ 256 := by
    have hlt := chainId.isLt
    omega
  rw [linksDomain, hashDomain_eq _ _ ⟨Int.natCast_nonneg _, hchain⟩, Int.toNat_natCast, ← wordU64_eq, structHash]
  simp only [List.flatten_cons, List.flatten_nil, List.append_nil]
  rw [← List.append_assoc, ← List.append_assoc]
  rfl

lemma encodeType_profile : encodeType "PealLinksAccount" PROFILE_TYPES = PROFILE_TYPE.toList := by
  have htype : String.ofList (encodeType "PealLinksAccount" PROFILE_TYPES) = PROFILE_TYPE := by decide +kernel
  rw [← htype, String.toList_ofList]

lemma validateFields_wallet (h : p.validateFields = .ok ()) : PaymentRequests.isEvmAddress p.wallet = true := by
  simp only [Profile.validateFields, bind_eq_ok, require_eq_ok] at h
  obtain ⟨-, -, -, hwallet, -⟩ := h
  exact hwallet

lemma uint_field {bits : Nat} {v : BitVec 64} (h : 64 ≤ bits) :
    encodeField keccak256 hexReading (.uint bits) (.number (v.toNat : Int)) = some (wordU64 v) := by
  have hlt : v.toNat < 2 ^ bits := v.isLt.trans_le (Nat.pow_le_pow_right (by decide) h)
  rw [encodeField_uint ⟨Int.natCast_nonneg _, by exact_mod_cast hlt⟩, Int.toNat_natCast, wordU64_eq]

/-- The words a profile is hashed as, its texts in hexadecimal as bytes. -/
def Profile.words (p : Profile) (wallet namespaceWord account encKey profileKey nonce prev : Bytes) : List Bytes :=
  [wordU64 p.version, wallet, wordU64 p.chainId, namespaceWord, account, encKey, profileKey,
    textHash keccak256 p.displayName, textHash keccak256 p.recovery, nonce, wordU64 p.issuedAt, wordU64 p.expiry, prev,
    wordU64 (if p.revoked then 1 else 0)]

lemma digest_eq_ok {wallet namespaceWord account encKey profileKey nonce prev : Bytes}
    (hwallet : wordAddress p.wallet = .ok wallet) (hnamespace : hex32 p.namespaceHex = .ok namespaceWord)
    (haccount : hex32 p.account = .ok account) (henc : hex32 p.encKey = .ok encKey)
    (hkey : hex32 p.profileKey = .ok profileKey) (hnonce : hex32 p.nonce = .ok nonce)
    (hprev : hex32 p.prev = .ok prev) :
    p.digest keccak256 = .ok (seal_ keccak256 (domainSeparator keccak256 p.chainId)
      (structHash keccak256 PROFILE_TYPE.toList
        (p.words wallet namespaceWord account encKey profileKey nonce prev))) := by
  unfold Profile.digest
  rw [hwallet, hnamespace, haccount, henc, hkey, hnonce, hprev]
  simp only [structHash, Profile.words, List.flatten_cons, List.flatten_nil, List.append_nil]
  simp only [← List.append_assoc]
  rfl

lemma encodeData_eq {raw namespaceWord account encKey profileKey nonce prev : Bytes} {t₁ t₂ t₃ t₄ t₅ t₆ : Text}
    (hm : Mirrors q p) (hwallet : hexReading.address p.wallet = some raw ∧ raw.length = 20)
    (hnamespace : hexReading.bytes t₁ = some namespaceWord ∧ namespaceWord.length = 32)
    (haccount : hexReading.bytes t₂ = some account ∧ account.length = 32)
    (henc : hexReading.bytes t₃ = some encKey ∧ encKey.length = 32)
    (hkey : hexReading.bytes t₄ = some profileKey ∧ profileKey.length = 32)
    (hnonce : hexReading.bytes t₅ = some nonce ∧ nonce.length = 32)
    (hprev : hexReading.bytes t₆ = some prev ∧ prev.length = 32) :
    encodeData keccak256 hexReading PROFILE_TYPES
        [("version", .number q.version), ("wallet", .hex q.wallet), ("chainId", .number q.chainId),
          ("namespace", .hex t₁), ("account", .hex t₂), ("encKey", .hex t₃), ("profileKey", .hex t₄),
          ("displayName", .text q.displayName), ("recovery", .text q.recovery), ("nonce", .hex t₅),
          ("issuedAt", .number q.issuedAt), ("expiry", .number q.expiry), ("prev", .hex t₆),
          ("revoked", .flag q.revoked)] =
      some (p.words (List.replicate 12 0 ++ raw) namespaceWord account encKey profileKey nonce prev) := by
  have hflag : encodeField keccak256 hexReading .bool (.flag p.revoked) =
      some (wordU64 (if p.revoked then 1 else 0)) := by
    rw [encodeField_bool, wordU64_eq]
    cases p.revoked <;> rfl
  rw [hm.version, hm.wallet, hm.chainId, hm.displayName, hm.recovery, hm.issuedAt, hm.expiry, hm.revoked]
  refine encodeData_cons ?_ (uint_field le_rfl) (encodeData_cons ?_ (encodeField_address hwallet.1 hwallet.2)
    (encodeData_cons ?_ (uint_field (by decide)) (encodeData_cons ?_ (encodeField_bytes32 hnamespace.1 hnamespace.2)
    (encodeData_cons ?_ (encodeField_bytes32 haccount.1 haccount.2)
    (encodeData_cons ?_ (encodeField_bytes32 henc.1 henc.2) (encodeData_cons ?_ (encodeField_bytes32 hkey.1 hkey.2)
    (encodeData_cons ?_ (encodeField_string p.displayName) (encodeData_cons ?_ (encodeField_string p.recovery)
    (encodeData_cons ?_ (encodeField_bytes32 hnonce.1 hnonce.2) (encodeData_cons ?_ (uint_field le_rfl)
    (encodeData_cons ?_ (uint_field le_rfl) (encodeData_cons ?_ (encodeField_bytes32 hprev.1 hprev.2)
    (encodeData_cons ?_ hflag rfl)))))))))))))
  all_goals simp [List.lookup_cons]

/-- For a profile the node accepts and the client can hash, both take one hash. -/
theorem profile_digest_agrees (hviem : Computes keccak256 hexReading hashTypedData)
    (hp : p.validateFields = .ok ()) (hq : profileTypedData q = .ok t) (hm : Mirrors q p) :
    ∃ d, p.digest keccak256 = .ok d ∧ profileHash hashTypedData q = some (hexEncode d) := by
  obtain ⟨raw, hwallet, hwalletRead, hwalletLength⟩ := wallet_read (validateFields_wallet hp)
  have htyped := hq
  simp only [profileTypedData, bind_eq_ok, pure_eq_ok] at htyped
  obtain ⟨namespaceHex, hnamespace, account, haccount, encKey, henc, profileKey, hkey, nonce, hnonce, prev, hprev, rfl⟩ :=
    htyped
  obtain ⟨b₁, hraw₁, hread₁⟩ := h32_read hnamespace
  obtain ⟨b₂, hraw₂, hread₂⟩ := h32_read haccount
  obtain ⟨b₃, hraw₃, hread₃⟩ := h32_read henc
  obtain ⟨b₄, hraw₄, hread₄⟩ := h32_read hkey
  obtain ⟨b₅, hraw₅, hread₅⟩ := h32_read hnonce
  obtain ⟨b₆, hraw₆, hread₆⟩ := h32_read hprev
  have hdata := encodeData_eq hm ⟨hwalletRead, hwalletLength⟩ hread₁ hread₂ hread₃ hread₄ hread₅ hread₆
  have hseparator := domainSeparator_eq p.chainId
  rw [← hm.chainId] at hseparator
  rw [hm.namespaceHex] at hraw₁
  rw [hm.account] at hraw₂
  rw [hm.encKey] at hraw₃
  rw [hm.profileKey] at hraw₄
  rw [hm.nonce] at hraw₅
  rw [hm.prev] at hraw₆
  refine ⟨_, digest_eq_ok hwallet hraw₁ hraw₂ hraw₃ hraw₄ hraw₅ hraw₆, ?_⟩
  unfold profileHash
  rw [hq]
  simp only [Except.toOption, Option.bind_eq_bind, Option.bind_some, Option.pure_def, Option.bind_eq_some_iff]
  refine ⟨_, hviem.digests _ _ ?_, rfl⟩
  unfold TypedData.digest hashStruct
  dsimp only
  rw [hseparator, hdata, encodeType_profile]
  rfl

end Agreement

end Peal.Links.Directory
