import Peal.Coordinator.IntentDigest
import Peal.Links.ProfileHash
import Peal.Links.Signing

namespace Peal.Links.Settlement
open Peal.Fallible Peal.Eip712 Peal.Keccak
open Peal.Gateway (PealLinksGateway)

/-! # The digest a signer attests to, byte by byte -/

def keccak (parts : List Bytes) : Bytes := keccak256 parts.flatten

def wordU256 (v : Nat) : Bytes := List.replicate 16 0 ++ (toLeBytes 16 v).reverse

def wordAddress (addr : Text) : Except Text Bytes := do
  let raw ← expect (hexDecode (trimHexPrefix addr)) "hex".toList
  require (raw.length = 20) "address must be 20 bytes".toList
  return List.replicate 12 0 ++ raw

def DOMAIN_TYPE : Text :=
  "EIP712Domain(string name,string version,uint256 chainId,address verifyingContract)".toList

def domainSeparator (chainId : Nat) (gateway : Text) : Except Text Bytes := do
  let gateway ← wordAddress gateway
  return keccak [keccak [Utf8.encode DOMAIN_TYPE], keccak [Utf8.encode "PealLinksGateway".toList],
    keccak [Utf8.encode "1".toList], wordU256 chainId, gateway]

def WITHDRAWAL_TYPE : Text :=
  "Withdrawal(uint256 chainId,address gateway,address token,address recipient,uint256 amount,bytes32 withdrawalId,uint64 epoch)".toList

/-- The digest a signer signs, of a message with the chain id and the epoch below `2 ^ 64`. -/
def withdrawalDigest (m : WithdrawalMessage) : Except Text Bytes := do
  let amount ← expect (parseU128 m.amount) "amount".toList
  let wid ← expect (hexDecode (trimHexPrefix m.withdrawalId)) "hex".toList
  require (wid.length = 32) "withdrawal id must be 32 bytes".toList
  let structHash := keccak [keccak [Utf8.encode WITHDRAWAL_TYPE], wordU256 m.chainId, ← wordAddress m.gateway,
    ← wordAddress m.token, ← wordAddress m.recipient, wordU256 amount, wid, wordU256 m.epoch]
  return keccak [[0x19, 0x01], ← domainSeparator m.chainId m.gateway, structHash]

/-! ### The chain a gateway runs on -/

/-- The bytes that are hashed of the words of a struct; the words of a digest follow two bytes. -/
def packed : List Nat → Bytes
  | [version, separator, structHash] => [version / 256, version % 256] ++ word separator ++ word structHash
  | words => words.flatMap word

def hashText (s : Text) : Nat := fromBeBytes (keccak256 (Utf8.encode s))

def gatewayChain (recover : Nat → List Nat → Option Nat) (chainid gateway : Nat) : Gateway.Chain where
  keccak256 words := fromBeBytes (keccak256 (packed words))
  recover := recover
  chainid := chainid
  self := gateway
  withdrawalTypehash := hashText WITHDRAWAL_TYPE
  domainTypehash := hashText DOMAIN_TYPE
  nameHash := hashText "PealLinksGateway".toList
  versionHash := hashText "1".toList

section Agreement

variable {recover : Nat → List Nat → Option Nat} {chainid gateway : Nat} {m : WithdrawalMessage} {addr : Text}

lemma wordU256_eq {v : Nat} (h : v < 2 ^ 128) : wordU256 v = word v := word_padded rfl (h.trans_le (by decide))

lemma word_keccak256 (bytes : Bytes) : word (fromBeBytes (keccak256 bytes)) = keccak256 bytes :=
  word_fromBeBytes (keccak256_length bytes) (keccak256_lt bytes)

lemma keccak_hashText (s : Text) : keccak [Utf8.encode s] = word (hashText s) := by
  rw [keccak, List.flatten_singleton, hashText, word_keccak256]

lemma parseU128Digits_lt {s : Text} {n : Nat} (h : parseU128Digits s = some n) : n < 2 ^ 128 := by
  unfold parseU128Digits at h
  have hfold : ∀ (s : Text) (acc : Nat), acc < 2 ^ 128 → ∀ n, s.foldlM (fun acc ch => do
      let d ← toDigit 10 ch
      if acc * 10 + d < 2 ^ 128 then some (acc * 10 + d) else none) acc = some n → n < 2 ^ 128 := by
    intro s
    induction s with
    | nil =>
      intro acc hacc n hn
      rw [List.foldlM_nil, Option.pure_def, Option.some.injEq] at hn
      exact hn ▸ hacc
    | cons c s ih =>
      intro acc hacc n hn
      rw [List.foldlM_cons, Option.bind_eq_bind, Option.bind_eq_some_iff] at hn
      obtain ⟨next, hnext, hrest⟩ := hn
      obtain ⟨d, -, hnext⟩ := Option.bind_eq_some_iff.mp hnext
      split_ifs at hnext with hlt
      rw [Option.some.injEq] at hnext
      exact ih next (hnext ▸ hlt) n hrest
  exact hfold s 0 (by decide) n h

lemma parseU128_lt {s : Text} {n : Nat} (h : parseU128 s = some n) : n < 2 ^ 128 := by
  unfold parseU128 at h
  split at h
  · cases h
  · split_ifs at h
    exact parseU128Digits_lt h
  · exact parseU128Digits_lt h

lemma wordAddress_eq : wordAddress addr = (Links.wordAddress addr).map word := by
  unfold wordAddress Links.wordAddress
  cases hraw : hexDecode (trimHexPrefix addr) with
  | none => rfl
  | some raw =>
    simp only [expect, bind, Except.bind]
    by_cases hlength : raw.length = 20
    · simp only [require, hlength, if_true, pure, Except.pure, Except.map]
      have hbytes : ∀ b ∈ List.replicate 12 0 ++ raw, b < 256 := by
        intro b hb
        rcases List.mem_append.mp hb with hzero | hb
        · rw [List.eq_of_mem_replicate hzero]
          decide
        · exact hexDecode_lt hraw b hb
      have hpadded : (List.replicate 12 0 ++ raw).length = 32 := by
        rw [List.length_append, List.length_replicate, hlength]
      have hword := word_fromBeBytes hpadded hbytes
      rw [fromBeBytes_padded] at hword
      rw [hword]
    · simp only [require, hlength, if_false, Except.map]

lemma keccak_words (words : List Nat) (h : packed words = words.flatMap word) :
    keccak (words.map word) = word ((gatewayChain recover chainid gateway).keccak256 words) := by
  rw [keccak, ← List.flatMap_def, ← h]
  exact (word_keccak256 _).symm

lemma keccak_sealed (separator structHash : Nat) : keccak [[0x19, 0x01], word separator, word structHash] =
    word ((gatewayChain recover chainid gateway).keccak256 [0x1901, separator, structHash]) := by
  rw [keccak, List.flatten_cons, List.flatten_cons, List.flatten_singleton, ← List.append_assoc]
  exact (word_keccak256 _).symm

lemma domainSeparator_eq {chainId : Nat} (h : chainId < 2 ^ 64) :
    domainSeparator chainId addr = (Links.wordAddress addr).map fun g =>
      word (WithdrawalMessage.domainSeparator (gatewayChain recover chainid gateway) chainId g) := by
  unfold domainSeparator
  rw [wordAddress_eq, wordU256_eq (h.trans (by decide)), keccak_hashText, keccak_hashText, keccak_hashText]
  cases Links.wordAddress addr with
  | error e => rfl
  | ok g =>
    exact congrArg Except.ok (keccak_words [hashText DOMAIN_TYPE, hashText "PealLinksGateway".toList,
      hashText "1".toList, chainId, g] rfl)

/-- The bytes a signer signs are the word of what the gateway computes of the message, with the same errors. -/
theorem withdrawalDigest_eq (hchain : m.chainId < 2 ^ 64) (hepoch : m.epoch < 2 ^ 64) :
    withdrawalDigest m = (m.digest (gatewayChain recover chainid gateway)).map word := by
  unfold withdrawalDigest WithdrawalMessage.digest WithdrawalMessage.decode
  rw [domainSeparator_eq hchain, wordAddress_eq, wordAddress_eq, wordAddress_eq]
  cases hamount : parseU128 m.amount with
  | none => rfl
  | some amount =>
  cases hwid : hexDecode (trimHexPrefix m.withdrawalId) with
  | none => rfl
  | some wid =>
  by_cases hlength : wid.length = 32
  · have hstruct : ∀ g t r : Nat, keccak [keccak [Utf8.encode WITHDRAWAL_TYPE], wordU256 m.chainId, word g, word t, word r,
        wordU256 amount, wid, wordU256 m.epoch] = word ((gatewayChain recover chainid gateway).keccak256
          [hashText WITHDRAWAL_TYPE, m.chainId, g, t, r, amount, fromBeBytes wid, m.epoch]) := by
      intro g t r
      conv_lhs => rw [← word_fromBeBytes hlength (hexDecode_lt hwid)]
      rw [wordU256_eq (parseU128_lt hamount), wordU256_eq (hchain.trans (by decide)),
        wordU256_eq (hepoch.trans (by decide)), keccak_hashText]
      exact keccak_words [hashText WITHDRAWAL_TYPE, m.chainId, g, t, r, amount, fromBeBytes wid, m.epoch] rfl
    cases Links.wordAddress m.gateway with
    | error e => simp [expect, require, hlength, bind, Except.bind, Except.map]
    | ok g =>
    cases Links.wordAddress m.token with
    | error e => simp [expect, require, hlength, bind, Except.bind, Except.map]
    | ok t =>
    cases Links.wordAddress m.recipient with
    | error e => simp [expect, require, hlength, bind, Except.bind, Except.map]
    | ok r =>
      simp only [expect, require, hlength, if_true, bind, Except.bind, pure, Except.pure, Except.map]
      rw [hstruct]
      exact congrArg Except.ok (keccak_sealed _ _)
  · simp [expect, require, hlength, bind, Except.bind, Except.map]

/-- What a signer signs for a message is what the gateway it names checks in `withdraw`. -/
theorem withdrawal_digest_agrees {wd : Gateway.Withdrawal} (hchain : m.chainId < 2 ^ 64) (hepoch : m.epoch < 2 ^ 64)
    (h : m.decode = .ok wd) : withdrawalDigest m =
      .ok (word (PealLinksGateway.withdrawalDigest (gatewayChain recover wd.chainId wd.gateway) wd)) := by
  have hdigest : withdrawalDigest m = (m.digest (gatewayChain recover wd.chainId wd.gateway)).map word :=
    withdrawalDigest_eq hchain hepoch
  rw [hdigest]
  unfold WithdrawalMessage.digest
  rw [h]
  rfl

end Agreement

end Peal.Links.Settlement

namespace Peal.Digests
open Peal.Fallible Peal.Eip712 Peal.Keccak
open Peal.Actions (IntentEnvelope intentDigest validateEnvelope hexReading)
open Peal.Coordinator.Digest (Fields Carries Same)
open Peal.Links (Bytes WithdrawalMessage hexEncode)
open Peal.Links.Directory (Profile UnsignedProfile Mirrors profileTypedData profileHash)
open Peal.Gateway (PealLinksGateway)
open Peal.Links.Settlement (gatewayChain)

/-! # Every digest is taken alike on both sides, and binds what it is taken of -/

/-- No two of the strings two digests are made of have one hash. -/
def Collisionless (f g : Fields) : Prop := Set.InjOn keccak256 {x | x ∈ f.preimages ∨ x ∈ g.preimages}

/-- An envelope the agent's side accepts and signs, for a chain that no parameter of the coordinator holds. -/
def farEnvelope : IntentEnvelope where
  protocolVersion := 1
  intentId := "far-chain-0001".toList
  encryptionKeyId := (List.replicate 32 "11".toList).flatten
  ciphertextHash := (List.replicate 32 "ab".toList).flatten
  nonce := "far-nonce-0001".toList
  createdAt := 0
  expiresAt := 1893456000
  pseudonymousSigner := "0x00000000000000000000000000000000000000aa".toList
  executionDomain := 2 ^ 64
  signature := none

section Statements

variable {hashTypedData : TypedData → Option Bytes}

/-- With a library that computes EIP-712, for all accepted envelopes, all profiles both sides accept and all messages:
the two sides have one digest; and accepted envelopes of one digest have the same seven fields. -/
theorem digests_agree_and_bind (hviem : Computes keccak256 hexReading hashTypedData) :
    (∀ env nowSecs f, validateEnvelope env nowSecs = .ok () → Carries env f →
      intentDigest hashTypedData env = f.digest.map Actions.hexText) ∧
    (∀ f g d, f.digest = some d → g.digest = some d → Collisionless f g → Same f g) ∧
    (∀ env env' nowSecs nowSecs' f g d, validateEnvelope env nowSecs = .ok () → validateEnvelope env' nowSecs' = .ok () →
      Carries env f → Carries env' g → f.digest = some d → g.digest = some d → Collisionless f g → f = g) ∧
    (∀ (p : Profile) (q : UnsignedProfile) t, p.validateFields = .ok () → profileTypedData q = .ok t → Mirrors q p →
      ∃ d, p.digest keccak256 = .ok d ∧ profileHash hashTypedData q = some (hexEncode d)) ∧
    ∀ (m : WithdrawalMessage) wd recover, m.chainId < 2 ^ 64 → m.epoch < 2 ^ 64 → m.decode = .ok wd →
      Links.Settlement.withdrawalDigest m =
        .ok (word (PealLinksGateway.withdrawalDigest (gatewayChain recover wd.chainId wd.gateway) wd)) := by
  refine ⟨?_, ?_, ?_, ?_, ?_⟩
  · intro env nowSecs f henv hf
    exact Coordinator.Digest.digest_agrees hviem henv hf
  · intro f g d hf hg hinj
    exact Coordinator.Digest.digest_binds hf hg hinj
  · intro env env' nowSecs nowSecs' f g d henv henv' hf hg hdf hdg hinj
    have hsame := Coordinator.Digest.digest_binds hdf hdg hinj
    exact hsame.eq hf hg henv henv'
  · intro p q t hp hq hm
    exact Links.Directory.profile_digest_agrees hviem hp hq hm
  · intro m wd recover hchain hepoch hdecode
    exact Links.Settlement.withdrawal_digest_agrees hchain hepoch hdecode

end Statements

def nearFields : Fields where
  protocolVersion := 1
  intentId := "far-chain-0001".toList
  encryptionKeyId := (List.replicate 32 "11".toList).flatten
  ciphertextHash := (List.replicate 32 "ab".toList).flatten
  nonce := "far-nonce-0001".toList
  expiresAt := 1893456000
  executionDomain := 560048

theorem digests_agree_and_bind_near :
    intentDigest (TypedData.digest keccak256 hexReading) { farEnvelope with executionDomain := 560048 } =
      nearFields.digest.map Actions.hexText :=
  (digests_agree_and_bind digest_computes).1 { farEnvelope with executionDomain := 560048 } 0 nearFields
    (by decide +kernel) ⟨rfl, rfl, rfl, rfl, rfl, by decide, by decide⟩

/-- No parameters of the coordinator hold the chain of this envelope, which the agent's side accepts and signs. -/
theorem digest_of_far_chain : validateEnvelope farEnvelope 0 = .ok () ∧
    (intentDigest (TypedData.digest keccak256 hexReading) farEnvelope).isSome = true ∧
    ¬∃ f, Carries farEnvelope f ∧
      intentDigest (TypedData.digest keccak256 hexReading) farEnvelope = f.digest.map Actions.hexText := by
  refine ⟨by decide +kernel, by decide +kernel, ?_⟩
  rintro ⟨f, hf, -⟩
  have hdomain : (2 ^ 64 : Int) = f.executionDomain.toNat := hf.executionDomain
  have hlt := f.executionDomain.isLt
  omega

end Peal.Digests
