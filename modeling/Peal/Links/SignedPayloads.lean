import Peal.Library.Encoding
import Peal.Actions.Commitment
import Peal.Links.Settlement

namespace Peal.Links
open Peal.Encoding
open Peal.Actions (utf8 utf8_injective)

/-! # The bytes that the spend key signs -/

structure KeyBinding where
  namespaceId : Namespace
  account : Fr
  encPubkey : Nat
  seq : Nat
  pubkey : Nat
  signature : Nat
  deriving DecidableEq, Repr

structure InboxAuth where
  namespaceId : Namespace
  account : Fr
  timestamp : Nat
  pubkey : Nat
  signature : Nat
  deriving DecidableEq, Repr

structure RequestManifest where
  version : Nat
  requestId : Text
  namespaceId : Namespace
  receiverAccount : Fr
  receiverEncKey : Nat
  amount : Nat
  title : Text
  displayName : Text
  receiverAddress : Text
  reference : Option Text
  expiresAt : Option Nat
  createdAt : Nat
  signerPubkey : Nat
  signature : Nat
  deriving DecidableEq, Repr

structure FulfillmentAck where
  requestId : Text
  namespaceId : Namespace
  receiverAccount : Fr
  position : Nat
  claimedAt : Nat
  signerPubkey : Nat
  signature : Nat
  deriving DecidableEq, Repr

namespace Wire

def ENVELOPE_MAGIC : Bytes := [0x50, 0x4c, 0x4b, 0x30]
def MANIFEST_MAGIC : Bytes := [0x50, 0x4c, 0x4b, 0x4d]
def ENVELOPE_KEY_BINDING : Nat := 3
def ENVELOPE_INBOX_AUTH : Nat := 4

/-- An array of 32 bytes, by the number it spells. -/
def array32 (n : Nat) : Bytes := (toLeBytes 32 n).reverse

def frToBytes (x : Fr) : Bytes := toLeBytes 32 x

def pushStr (s : Text) : Bytes := toLeBytes 4 (utf8 s).length ++ utf8 s

def RegisterEnvelope.signingBytes (env : RegisterEnvelope) : Bytes :=
  ENVELOPE_MAGIC ++ [ENVELOPE_REGISTER] ++ array32 env.namespaceId ++ array32 env.pubkey ++ frToBytes env.randomness

def OpEnvelope.signingBytes (env : OpEnvelope) : Bytes :=
  ENVELOPE_MAGIC ++ [ENVELOPE_OP] ++ array32 env.namespaceId ++ array32 env.circuitId ++ frToBytes env.account ++
    frToBytes env.com ++ frToBytes env.comNew ++ frToBytes env.receipt ++ frToBytes env.root ++ env.proof ++
    array32 env.pubkey

def KeyBinding.signingBytes (b : KeyBinding) : Bytes :=
  ENVELOPE_MAGIC ++ [ENVELOPE_KEY_BINDING] ++ array32 b.namespaceId ++ frToBytes b.account ++ array32 b.encPubkey ++
    toLeBytes 8 b.seq ++ array32 b.pubkey

def InboxAuth.signingBytes (auth : InboxAuth) : Bytes :=
  ENVELOPE_MAGIC ++ [ENVELOPE_INBOX_AUTH] ++ array32 auth.namespaceId ++ frToBytes auth.account ++
    toLeBytes 8 auth.timestamp ++ array32 auth.pubkey

def WithdrawalClaim.signingBytes (claim : WithdrawalClaim) : Bytes :=
  ENVELOPE_MAGIC ++ [ENVELOPE_WITHDRAWAL] ++ array32 claim.namespaceId ++ frToBytes claim.account ++
    toLeBytes 8 claim.position ++ toLeBytes 8 claim.opening.amount ++ frToBytes claim.opening.sender ++
    frToBytes claim.opening.receiver ++ frToBytes claim.opening.randomness ++
    toLeBytes 4 (utf8 claim.recipient).length ++ utf8 claim.recipient ++ array32 claim.pubkey

def RequestManifest.signingBytes (m : RequestManifest) : Bytes :=
  MANIFEST_MAGIC ++ [m.version] ++ pushStr m.requestId ++ array32 m.namespaceId ++ frToBytes m.receiverAccount ++
    array32 m.receiverEncKey ++ toLeBytes 8 m.amount ++ pushStr m.title ++ pushStr m.displayName ++
    pushStr m.receiverAddress ++ writeOption 0 1 pushStr m.reference ++ writeOption 0 1 (toLeBytes 8) m.expiresAt ++
    toLeBytes 8 m.createdAt ++ array32 m.signerPubkey

def FulfillmentAck.signingBytes (a : FulfillmentAck) : Bytes :=
  [0x50, 0x4c, 0x4b, 0x41] ++ [1] ++ pushStr a.requestId ++ array32 a.namespaceId ++ frToBytes a.receiverAccount ++
    toLeBytes 8 a.position ++ toLeBytes 8 a.claimedAt ++ array32 a.signerPubkey

end Wire

/-- Whatever the spend key signs. -/
inductive SignedPayload where
  | register (env : RegisterEnvelope)
  | op (env : OpEnvelope)
  | keyBinding (b : KeyBinding)
  | inboxAuth (auth : InboxAuth)
  | withdrawal (claim : WithdrawalClaim)
  | manifest (m : RequestManifest)
  | ack (a : FulfillmentAck)
  deriving DecidableEq, Repr

namespace SignedPayload

def signingBytes : SignedPayload → Bytes
  | .register env => Wire.RegisterEnvelope.signingBytes env
  | .op env => Wire.OpEnvelope.signingBytes env
  | .keyBinding b => Wire.KeyBinding.signingBytes b
  | .inboxAuth auth => Wire.InboxAuth.signingBytes auth
  | .withdrawal claim => Wire.WithdrawalClaim.signingBytes claim
  | .manifest m => Wire.RequestManifest.signingBytes m
  | .ack a => Wire.FulfillmentAck.signingBytes a

/-- The signed fields: all but the signature. -/
def unsigned : SignedPayload → SignedPayload
  | .register env => .register { env with signature := 0 }
  | .op env => .op { env with signature := 0 }
  | .keyBinding b => .keyBinding { b with signature := 0 }
  | .inboxAuth auth => .inboxAuth { auth with signature := 0 }
  | .withdrawal claim => .withdrawal { claim with signature := 0 }
  | .manifest m => .manifest { m with signature := 0 }
  | .ack a => .ack { a with signature := 0 }

end SignedPayload

/-- What an array of 32 bytes or a field element can hold. -/
def Word256 (n : Nat) : Prop := n < 256 ^ 32

/-- What a `u64` can hold. -/
def Word64 (n : Nat) : Prop := n < 256 ^ 8

/-- A string shorter than 2^32 bytes. -/
def ShortText (s : Text) : Prop := (utf8 s).length < 2 ^ 32

/-- The numbers fit the widths of their fields and the strings are shorter than 2^32 bytes. -/
def SignedPayload.Fits : SignedPayload → Prop
  | .register env => Word256 env.namespaceId ∧ Word256 env.pubkey ∧ Word256 env.randomness
  | .op env => Word256 env.namespaceId ∧ Word256 env.circuitId ∧ Word256 env.account ∧ Word256 env.com ∧
      Word256 env.comNew ∧ Word256 env.receipt ∧ Word256 env.root ∧ Word256 env.pubkey
  | .keyBinding b => Word256 b.namespaceId ∧ Word256 b.account ∧ Word256 b.encPubkey ∧ Word64 b.seq ∧ Word256 b.pubkey
  | .inboxAuth auth => Word256 auth.namespaceId ∧ Word256 auth.account ∧ Word64 auth.timestamp ∧ Word256 auth.pubkey
  | .withdrawal claim => Word256 claim.namespaceId ∧ Word256 claim.account ∧ Word64 claim.position ∧
      Word64 claim.opening.amount ∧ Word256 claim.opening.sender ∧ Word256 claim.opening.receiver ∧
      Word256 claim.opening.randomness ∧ ShortText claim.recipient ∧ Word256 claim.pubkey
  | .manifest m => ShortText m.requestId ∧ Word256 m.namespaceId ∧ Word256 m.receiverAccount ∧
      Word256 m.receiverEncKey ∧ Word64 m.amount ∧ ShortText m.title ∧ ShortText m.displayName ∧
      ShortText m.receiverAddress ∧ (∀ r ∈ m.reference, ShortText r) ∧ (∀ t ∈ m.expiresAt, Word64 t) ∧
      Word64 m.createdAt ∧ Word256 m.signerPubkey
  | .ack a => ShortText a.requestId ∧ Word256 a.namespaceId ∧ Word256 a.receiverAccount ∧ Word64 a.position ∧
      Word64 a.claimedAt ∧ Word256 a.signerPubkey

/-! ### The fields -/

lemma toLeBytes_prefixFree (width : Nat) : PrefixFree (· < 256 ^ width) (toLeBytes width) :=
  prefixFree_of_length (fun n _ => toLeBytes_length width n) fun m n hm hn heq => by
    have hread := congrArg fromLeBytes heq
    rwa [fromLeBytes_toLeBytes hm, fromLeBytes_toLeBytes hn] at hread

namespace Wire

lemma array32_length (n : Nat) : (array32 n).length = 32 := by rw [array32, List.length_reverse, toLeBytes_length]

lemma array32_prefixFree : PrefixFree Word256 array32 :=
  prefixFree_of_length (fun n _ => array32_length n) fun _ _ hm hn heq =>
    (toLeBytes_prefixFree 32).injective hm hn (List.reverse_injective heq)

lemma frToBytes_prefixFree : PrefixFree Word256 frToBytes := toLeBytes_prefixFree 32

lemma u64_prefixFree : PrefixFree Word64 (toLeBytes 8) := toLeBytes_prefixFree 8

lemma pushStr_prefixFree : PrefixFree ShortText pushStr := by
  have hcount : PrefixFree (· < 256 ^ 4) (toLeBytes 4) := toLeBytes_prefixFree 4
  have hprefixed : PrefixFree (fun s : Text => True ∧ (utf8 s).length < 256 ^ 4)
      fun s => toLeBytes 4 (utf8 s).length ++ utf8 s :=
    hcount.lengthPrefixed fun _ _ _ _ heq => utf8_injective heq
  exact hprefixed.mono fun s hs => ⟨trivial, hs⟩

/-! ### Each payload -/

lemma RegisterEnvelope.signingBytes_injective {a b : RegisterEnvelope} (ha : (SignedPayload.register a).Fits)
    (hb : (SignedPayload.register b).Fits) (h : signingBytes a = signingBytes b) :
    (SignedPayload.register a).unsigned = (SignedPayload.register b).unsigned := by
  obtain ⟨hans, hapk, har⟩ := ha
  obtain ⟨hbns, hbpk, hbr⟩ := hb
  simp only [signingBytes, List.append_assoc, List.append_cancel_left_eq] at h
  obtain ⟨hns, h⟩ := array32_prefixFree hans hbns h
  obtain ⟨hpk, h⟩ := array32_prefixFree hapk hbpk h
  have hr := frToBytes_prefixFree.injective har hbr h
  simp [SignedPayload.unsigned, hns, hpk, hr]

lemma OpEnvelope.signingBytes_injective {a b : OpEnvelope} (ha : (SignedPayload.op a).Fits)
    (hb : (SignedPayload.op b).Fits) (h : signingBytes a = signingBytes b) :
    (SignedPayload.op a).unsigned = (SignedPayload.op b).unsigned := by
  obtain ⟨hans, haci, haac, haco, hacn, hare, haro, hapk⟩ := ha
  obtain ⟨hbns, hbci, hbac, hbco, hbcn, hbre, hbro, hbpk⟩ := hb
  simp only [signingBytes, List.append_assoc, List.append_cancel_left_eq] at h
  obtain ⟨hns, h⟩ := array32_prefixFree hans hbns h
  obtain ⟨hci, h⟩ := array32_prefixFree haci hbci h
  obtain ⟨hac, h⟩ := frToBytes_prefixFree haac hbac h
  obtain ⟨hco, h⟩ := frToBytes_prefixFree haco hbco h
  obtain ⟨hcn, h⟩ := frToBytes_prefixFree hacn hbcn h
  obtain ⟨hre, h⟩ := frToBytes_prefixFree hare hbre h
  obtain ⟨hro, h⟩ := frToBytes_prefixFree haro hbro h
  obtain ⟨hproof, h⟩ := List.append_inj' h (by rw [array32_length, array32_length])
  have hpk := array32_prefixFree.injective hapk hbpk h
  simp [SignedPayload.unsigned, hns, hci, hac, hco, hcn, hre, hro, hproof, hpk]

lemma KeyBinding.signingBytes_injective {a b : KeyBinding} (ha : (SignedPayload.keyBinding a).Fits)
    (hb : (SignedPayload.keyBinding b).Fits) (h : signingBytes a = signingBytes b) :
    (SignedPayload.keyBinding a).unsigned = (SignedPayload.keyBinding b).unsigned := by
  obtain ⟨hans, haac, haen, hase, hapk⟩ := ha
  obtain ⟨hbns, hbac, hben, hbse, hbpk⟩ := hb
  simp only [signingBytes, List.append_assoc, List.append_cancel_left_eq] at h
  obtain ⟨hns, h⟩ := array32_prefixFree hans hbns h
  obtain ⟨hac, h⟩ := frToBytes_prefixFree haac hbac h
  obtain ⟨hen, h⟩ := array32_prefixFree haen hben h
  obtain ⟨hse, h⟩ := u64_prefixFree hase hbse h
  have hpk := array32_prefixFree.injective hapk hbpk h
  simp [SignedPayload.unsigned, hns, hac, hen, hse, hpk]

lemma InboxAuth.signingBytes_injective {a b : InboxAuth} (ha : (SignedPayload.inboxAuth a).Fits)
    (hb : (SignedPayload.inboxAuth b).Fits) (h : signingBytes a = signingBytes b) :
    (SignedPayload.inboxAuth a).unsigned = (SignedPayload.inboxAuth b).unsigned := by
  obtain ⟨hans, haac, hati, hapk⟩ := ha
  obtain ⟨hbns, hbac, hbti, hbpk⟩ := hb
  simp only [signingBytes, List.append_assoc, List.append_cancel_left_eq] at h
  obtain ⟨hns, h⟩ := array32_prefixFree hans hbns h
  obtain ⟨hac, h⟩ := frToBytes_prefixFree haac hbac h
  obtain ⟨hti, h⟩ := u64_prefixFree hati hbti h
  have hpk := array32_prefixFree.injective hapk hbpk h
  simp [SignedPayload.unsigned, hns, hac, hti, hpk]

lemma WithdrawalClaim.signingBytes_injective {a b : WithdrawalClaim} (ha : (SignedPayload.withdrawal a).Fits)
    (hb : (SignedPayload.withdrawal b).Fits) (h : signingBytes a = signingBytes b) :
    (SignedPayload.withdrawal a).unsigned = (SignedPayload.withdrawal b).unsigned := by
  obtain ⟨hans, haac, hapo, haam, hase, hare, hara, harc, hapk⟩ := ha
  obtain ⟨hbns, hbac, hbpo, hbam, hbse, hbre, hbra, hbrc, hbpk⟩ := hb
  simp only [signingBytes, List.append_assoc, List.append_cancel_left_eq] at h
  obtain ⟨hns, h⟩ := array32_prefixFree hans hbns h
  obtain ⟨hac, h⟩ := frToBytes_prefixFree haac hbac h
  obtain ⟨hpo, h⟩ := u64_prefixFree hapo hbpo h
  obtain ⟨ham, h⟩ := u64_prefixFree haam hbam h
  obtain ⟨hse, h⟩ := frToBytes_prefixFree hase hbse h
  obtain ⟨hre, h⟩ := frToBytes_prefixFree hare hbre h
  obtain ⟨hra, h⟩ := frToBytes_prefixFree hara hbra h
  -- the recipient is length-prefixed in place
  rw [← List.append_assoc, ← List.append_assoc (toLeBytes 4 (utf8 b.recipient).length)] at h
  obtain ⟨hrc, h⟩ := pushStr_prefixFree harc hbrc h
  have hpk := array32_prefixFree.injective hapk hbpk h
  have hopening : a.opening = b.opening := by
    cases hao : a.opening
    cases hbo : b.opening
    simp_all
  simp [SignedPayload.unsigned, hns, hac, hpo, hopening, hrc, hpk]

lemma RequestManifest.signingBytes_injective {a b : RequestManifest} (ha : (SignedPayload.manifest a).Fits)
    (hb : (SignedPayload.manifest b).Fits) (h : signingBytes a = signingBytes b) :
    (SignedPayload.manifest a).unsigned = (SignedPayload.manifest b).unsigned := by
  obtain ⟨haid, hans, haac, haen, haam, hati, hadn, haad, harf, haex, hacr, hapk⟩ := ha
  obtain ⟨hbid, hbns, hbac, hben, hbam, hbti, hbdn, hbad, hbrf, hbex, hbcr, hbpk⟩ := hb
  simp only [signingBytes, List.append_assoc, List.append_cancel_left_eq] at h
  obtain ⟨hversion, h⟩ := List.cons.inj h
  obtain ⟨hid, h⟩ := pushStr_prefixFree haid hbid h
  obtain ⟨hns, h⟩ := array32_prefixFree hans hbns h
  obtain ⟨hac, h⟩ := frToBytes_prefixFree haac hbac h
  obtain ⟨hen, h⟩ := array32_prefixFree haen hben h
  obtain ⟨ham, h⟩ := u64_prefixFree haam hbam h
  obtain ⟨hti, h⟩ := pushStr_prefixFree hati hbti h
  obtain ⟨hdn, h⟩ := pushStr_prefixFree hadn hbdn h
  obtain ⟨had, h⟩ := pushStr_prefixFree haad hbad h
  obtain ⟨hrf, h⟩ := pushStr_prefixFree.option Nat.zero_ne_one harf hbrf h
  obtain ⟨hex, h⟩ := u64_prefixFree.option Nat.zero_ne_one haex hbex h
  obtain ⟨hcr, h⟩ := u64_prefixFree hacr hbcr h
  have hpk := array32_prefixFree.injective hapk hbpk h
  simp [SignedPayload.unsigned, hversion, hid, hns, hac, hen, ham, hti, hdn, had, hrf, hex, hcr, hpk]

lemma FulfillmentAck.signingBytes_injective {a b : FulfillmentAck} (ha : (SignedPayload.ack a).Fits)
    (hb : (SignedPayload.ack b).Fits) (h : signingBytes a = signingBytes b) :
    (SignedPayload.ack a).unsigned = (SignedPayload.ack b).unsigned := by
  obtain ⟨haid, hans, haac, hapo, hacl, hapk⟩ := ha
  obtain ⟨hbid, hbns, hbac, hbpo, hbcl, hbpk⟩ := hb
  simp only [signingBytes, List.append_assoc, List.append_cancel_left_eq] at h
  obtain ⟨hid, h⟩ := pushStr_prefixFree haid hbid h
  obtain ⟨hns, h⟩ := array32_prefixFree hans hbns h
  obtain ⟨hac, h⟩ := frToBytes_prefixFree haac hbac h
  obtain ⟨hpo, h⟩ := u64_prefixFree hapo hbpo h
  obtain ⟨hcl, h⟩ := u64_prefixFree hacl hbcl h
  have hpk := array32_prefixFree.injective hapk hbpk h
  simp [SignedPayload.unsigned, hid, hns, hac, hpo, hcl, hpk]

end Wire

/-- The magic and the byte after it, which tell the purposes apart. -/
def SignedPayload.tag : SignedPayload → Bytes
  | .register _ => Wire.ENVELOPE_MAGIC ++ [ENVELOPE_REGISTER]
  | .op _ => Wire.ENVELOPE_MAGIC ++ [ENVELOPE_OP]
  | .keyBinding _ => Wire.ENVELOPE_MAGIC ++ [Wire.ENVELOPE_KEY_BINDING]
  | .inboxAuth _ => Wire.ENVELOPE_MAGIC ++ [Wire.ENVELOPE_INBOX_AUTH]
  | .withdrawal _ => Wire.ENVELOPE_MAGIC ++ [ENVELOPE_WITHDRAWAL]
  | .manifest m => Wire.MANIFEST_MAGIC ++ [m.version]
  | .ack _ => [0x50, 0x4c, 0x4b, 0x41] ++ [1]

lemma SignedPayload.take_signingBytes (p : SignedPayload) : p.signingBytes.take 5 = p.tag := by
  cases p with
  | register env => rfl
  | op env => rfl
  | keyBinding b => rfl
  | inboxAuth auth => rfl
  | withdrawal claim => rfl
  | manifest m => rfl
  | ack a => rfl

/-- The purposes, numbered; each has its own tag. -/
def SignedPayload.purpose : SignedPayload → Nat
  | .register _ => 0
  | .op _ => 1
  | .keyBinding _ => 2
  | .inboxAuth _ => 3
  | .withdrawal _ => 4
  | .manifest _ => 5
  | .ack _ => 6

/-- The purpose as its tag shows it: the type of an envelope, or the magic of a manifest or an acknowledgement. -/
def purposeOf (tag : Bytes) : Nat :=
  if tag.take 4 = Wire.ENVELOPE_MAGIC then tag.getD 4 0 - 1 else if tag.take 4 = Wire.MANIFEST_MAGIC then 5 else 6

lemma SignedPayload.purposeOf_tag (p : SignedPayload) : purposeOf p.tag = p.purpose := by
  cases p with
  | _ => rfl

lemma SignedPayload.tag_ne {p q : SignedPayload} (h : p.purpose ≠ q.purpose) : p.tag ≠ q.tag := by
  intro htag
  apply h
  rw [← p.purposeOf_tag, ← q.purposeOf_tag, htag]

/-- The bytes that are signed determine the purpose and every signed field; so a signature that verifies no message but
the one it was made for is good for nothing else. -/
theorem signed_payloads_separate (p q : SignedPayload) (hp : p.Fits) (hq : q.Fits) :
    (p.signingBytes = q.signingBytes → p.unsigned = q.unsigned) ∧
      ∀ (σ : Type) (sign : Bytes → σ) (verify : Bytes → σ → Prop), (∀ m m', verify m' (sign m) → m' = m) →
        verify q.signingBytes (sign p.signingBytes) → p.unsigned = q.unsigned := by
  have hinj : p.signingBytes = q.signingBytes → p.unsigned = q.unsigned := by
    intro h
    have htag : p.tag = q.tag := by
      rw [← p.take_signingBytes, ← q.take_signingBytes, h]
    cases p with
    | register a =>
      cases q with
      | register b => exact Wire.RegisterEnvelope.signingBytes_injective hp hq h
      | _ => exact absurd htag (SignedPayload.tag_ne nofun)
    | op a =>
      cases q with
      | op b => exact Wire.OpEnvelope.signingBytes_injective hp hq h
      | _ => exact absurd htag (SignedPayload.tag_ne nofun)
    | keyBinding a =>
      cases q with
      | keyBinding b => exact Wire.KeyBinding.signingBytes_injective hp hq h
      | _ => exact absurd htag (SignedPayload.tag_ne nofun)
    | inboxAuth a =>
      cases q with
      | inboxAuth b => exact Wire.InboxAuth.signingBytes_injective hp hq h
      | _ => exact absurd htag (SignedPayload.tag_ne nofun)
    | withdrawal a =>
      cases q with
      | withdrawal b => exact Wire.WithdrawalClaim.signingBytes_injective hp hq h
      | _ => exact absurd htag (SignedPayload.tag_ne nofun)
    | manifest a =>
      cases q with
      | manifest b => exact Wire.RequestManifest.signingBytes_injective hp hq h
      | _ => exact absurd htag (SignedPayload.tag_ne nofun)
    | ack a =>
      cases q with
      | ack b => exact Wire.FulfillmentAck.signingBytes_injective hp hq h
      | _ => exact absurd htag (SignedPayload.tag_ne nofun)
  exact ⟨hinj, fun σ sign verify hsound hver => hinj (hsound _ _ hver).symm⟩

/-- A request and an acknowledgement of it. -/
def sampleRequest : SignedPayload :=
  .manifest ⟨2, "abcdefghijklmnopqrstuvwx".toList, 1, 2, 3, 500, "Invoice".toList, "Ada".toList,
    "0x00000000000000000000000000000000000000aa".toList, some "r-1".toList, none, 1700000000, 4, 0⟩

def sampleAck : SignedPayload := .ack ⟨"abcdefghijklmnopqrstuvwx".toList, 1, 2, 9, 1700000100, 4, 0⟩

lemma sampleRequest_fits : sampleRequest.Fits := by
  unfold sampleRequest SignedPayload.Fits Word256 Word64 ShortText
  decide +kernel

lemma sampleAck_fits : sampleAck.Fits := by
  unfold sampleAck SignedPayload.Fits Word256 Word64 ShortText
  decide +kernel

theorem signed_payloads_sample : (sampleRequest.signingBytes = sampleAck.signingBytes →
    sampleRequest.unsigned = sampleAck.unsigned) ∧
      ∀ (σ : Type) (sign : Bytes → σ) (verify : Bytes → σ → Prop), (∀ m m', verify m' (sign m) → m' = m) →
        verify sampleAck.signingBytes (sign sampleRequest.signingBytes) → sampleRequest.unsigned = sampleAck.unsigned :=
  signed_payloads_separate sampleRequest sampleAck sampleRequest_fits sampleAck_fits

end Peal.Links
