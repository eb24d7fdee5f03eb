import Peal.Library.Json
import Peal.Consensus.Actor
import Peal.Links.DepositId

namespace Peal.Consensus
open Peal.Fallible Peal.Json
open Peal.Links (Bytes Text Id Tx Block Envelope RegisterEnvelope OpEnvelope DepositIntent MintEnvelope hexEncode hexDecode
  toLeBytes fromLeBytes frToHex frFromHex)

/-! # Blocks and transactions as JSON -/

/-- A fixed-width byte string, by its value. -/
def word (width n : Nat) : Value := .str (hexEncode (toLeBytes width n))

def fr (x : Nat) : Value := .str (frToHex x)

def hexVec (bytes : Bytes) : Value := .str (hexEncode bytes)

def registerFields (env : RegisterEnvelope) : List (Text × Value) :=
  [ ("namespace".toList, word 32 env.namespaceId),
    ("pubkey".toList, word 32 env.pubkey),
    ("randomness".toList, fr env.randomness),
    ("signature".toList, word 64 env.signature) ]

def opFields (env : OpEnvelope) : List (Text × Value) :=
  [ ("namespace".toList, word 32 env.namespaceId),
    ("circuit_id".toList, word 32 env.circuitId),
    ("account".toList, fr env.account),
    ("com".toList, fr env.com),
    ("com_new".toList, fr env.comNew),
    ("receipt".toList, fr env.receipt),
    ("root".toList, fr env.root),
    ("proof".toList, hexVec env.proof),
    ("pubkey".toList, word 32 env.pubkey),
    ("signature".toList, word 64 env.signature) ]

def intentFields (intent : DepositIntent) : List (Text × Value) :=
  [ ("namespace".toList, word 32 intent.namespaceId),
    ("circuit_id".toList, word 32 intent.circuitId),
    ("amount".toList, .num intent.amount),
    ("receipt".toList, fr intent.receipt),
    ("proof".toList, hexVec intent.proof) ]

def mintFields (env : MintEnvelope) : List (Text × Value) :=
  [("intent".toList, .obj (intentFields env.intent)), ("deposit_id".toList, .str env.depositId)]

/-- The kind stands beside the fields of its variant. -/
def envelopeFields : Envelope → List (Text × Value)
  | .register env => ("kind".toList, .str "register".toList) :: registerFields env
  | .op env => ("kind".toList, .str "op".toList) :: opFields env
  | .mint env => ("kind".toList, .str "mint".toList) :: mintFields env

def txFields (tx : Tx) : List (Text × Value) :=
  [("namespace".toList, word 32 tx.namespaceId), ("envelope".toList, .obj (envelopeFields tx.envelope))]

def txValue (tx : Tx) : Value := .obj (txFields tx)

def blockFields (block : Block) : List (Text × Value) :=
  [ ("version".toList, .num block.version),
    ("epoch".toList, .num block.epoch),
    ("view".toList, .num block.view),
    ("height".toList, .num block.height),
    ("parent".toList, word 32 block.parent),
    ("txs".toList, .arr (block.txs.map txValue)) ]

def toBytes (v : Value) : Bytes := Utf8.encode (render v)

def encodeTx (tx : Tx) : Bytes := toBytes (txValue tx)

def encodeBlock (block : Block) : Bytes := toBytes (.obj (blockFields block))

/-! ### Reading -/

/-- A field that is missing or there twice is refused, one that is not asked for passed over. -/
def field (fields : List (Text × Value)) (key : Text) : Option Value :=
  match fields.filter fun f => f.1 = key with
  | [f] => some f.2
  | _ => none

def asText : Value → Option Text
  | .str s => some s
  | _ => none

def asFields : Value → Option (List (Text × Value))
  | .obj fields => some fields
  | _ => none

def asItems : Value → Option (List Value)
  | .arr items => some items
  | _ => none

def asUint (bits : Nat) : Value → Option Nat
  | .num (.ofNat n) => if n < 2 ^ bits then some n else none
  | _ => none

def asHexVec (v : Value) : Option Bytes := do
  let s ← asText v
  hexDecode s

def asWord (width : Nat) (v : Value) : Option Nat := do
  let bytes ← asHexVec v
  guard (bytes.length = width)
  return fromLeBytes bytes

def asFr (v : Value) : Option Nat := do
  let s ← asText v
  frFromHex s

def readRegister (fields : List (Text × Value)) : Option RegisterEnvelope := do
  let namespaceId ← (field fields "namespace".toList).bind (asWord 32)
  let pubkey ← (field fields "pubkey".toList).bind (asWord 32)
  let randomness ← (field fields "randomness".toList).bind asFr
  let signature ← (field fields "signature".toList).bind (asWord 64)
  return ⟨namespaceId, pubkey, randomness, signature⟩

def readOp (fields : List (Text × Value)) : Option OpEnvelope := do
  let namespaceId ← (field fields "namespace".toList).bind (asWord 32)
  let circuitId ← (field fields "circuit_id".toList).bind (asWord 32)
  let account ← (field fields "account".toList).bind asFr
  let com ← (field fields "com".toList).bind asFr
  let comNew ← (field fields "com_new".toList).bind asFr
  let receipt ← (field fields "receipt".toList).bind asFr
  let root ← (field fields "root".toList).bind asFr
  let proof ← (field fields "proof".toList).bind asHexVec
  let pubkey ← (field fields "pubkey".toList).bind (asWord 32)
  let signature ← (field fields "signature".toList).bind (asWord 64)
  return ⟨namespaceId, circuitId, account, com, comNew, receipt, root, proof, pubkey, signature⟩

def readIntent (fields : List (Text × Value)) : Option DepositIntent := do
  let namespaceId ← (field fields "namespace".toList).bind (asWord 32)
  let circuitId ← (field fields "circuit_id".toList).bind (asWord 32)
  let amount ← (field fields "amount".toList).bind (asUint 64)
  let receipt ← (field fields "receipt".toList).bind asFr
  let proof ← (field fields "proof".toList).bind asHexVec
  return ⟨namespaceId, circuitId, amount, receipt, proof⟩

def readMint (fields : List (Text × Value)) : Option MintEnvelope := do
  let intent ← (field fields "intent".toList).bind asFields
  let intent ← readIntent intent
  let depositId ← (field fields "deposit_id".toList).bind asText
  return ⟨intent, depositId⟩

def readEnvelope (fields : List (Text × Value)) : Option Envelope := do
  let kind ← (field fields "kind".toList).bind asText
  if kind = "register".toList then (readRegister fields).map .register
  else if kind = "op".toList then (readOp fields).map .op
  else if kind = "mint".toList then (readMint fields).map .mint
  else none

def readTx (v : Value) : Option Tx := do
  let fields ← asFields v
  let namespaceId ← (field fields "namespace".toList).bind (asWord 32)
  let envelope ← (field fields "envelope".toList).bind asFields
  let envelope ← readEnvelope envelope
  return ⟨namespaceId, envelope⟩

def readBlock (v : Value) : Option Block := do
  let fields ← asFields v
  let version ← (field fields "version".toList).bind (asUint 8)
  let epoch ← (field fields "epoch".toList).bind (asUint 64)
  let view ← (field fields "view".toList).bind (asUint 64)
  let height ← (field fields "height".toList).bind (asUint 64)
  let parent ← (field fields "parent".toList).bind (asWord 32)
  let txs ← (field fields "txs".toList).bind asItems
  let txs ← txs.mapM readTx
  return ⟨version, epoch, view, height, parent, txs⟩

def fromBytes (bytes : Bytes) : Option Value := (Utf8.decode bytes).bind Json.parse

def parseTx (bytes : Bytes) : Except String Tx := expect ((fromBytes bytes).bind readTx) "malformed"

def parseBlock (bytes : Bytes) : Except String Block := expect ((fromBytes bytes).bind readBlock) "malformed"

/-- The configuration with the JSON of the derived serializers. -/
def withJson (cfg : Config) : Config :=
  { cfg with
    encodeTx := encodeTx
    parseTx := parseTx
    encodeBlock := encodeBlock
    parseBlock := parseBlock }

/-! ### Round trip -/

/-- The byte strings have their width and the integers their range. -/
structure RegisterTyped (env : RegisterEnvelope) : Prop where
  namespaceId : env.namespaceId < 256 ^ 32
  pubkey : env.pubkey < 256 ^ 32
  randomness : env.randomness < Peal.Links.MODULUS
  signature : env.signature < 256 ^ 64

structure OpTyped (env : OpEnvelope) : Prop where
  namespaceId : env.namespaceId < 256 ^ 32
  circuitId : env.circuitId < 256 ^ 32
  account : env.account < Peal.Links.MODULUS
  com : env.com < Peal.Links.MODULUS
  comNew : env.comNew < Peal.Links.MODULUS
  receipt : env.receipt < Peal.Links.MODULUS
  root : env.root < Peal.Links.MODULUS
  proof : ∀ b ∈ env.proof, b < 256
  pubkey : env.pubkey < 256 ^ 32
  signature : env.signature < 256 ^ 64

structure IntentTyped (intent : DepositIntent) : Prop where
  namespaceId : intent.namespaceId < 256 ^ 32
  circuitId : intent.circuitId < 256 ^ 32
  amount : intent.amount < 2 ^ 64
  receipt : intent.receipt < Peal.Links.MODULUS
  proof : ∀ b ∈ intent.proof, b < 256

def EnvelopeTyped : Envelope → Prop
  | .register env => RegisterTyped env
  | .op env => OpTyped env
  | .mint env => IntentTyped env.intent

def TxTyped (tx : Tx) : Prop := tx.namespaceId < 256 ^ 32 ∧ EnvelopeTyped tx.envelope

lemma asHexVec_hexVec {bytes : Bytes} (h : ∀ b ∈ bytes, b < 256) : asHexVec (hexVec bytes) = some bytes :=
  Peal.Links.hexDecode_hexEncode h

lemma asWord_word {width n : Nat} (h : n < 256 ^ width) : asWord width (word width n) = some n := by
  have hbytes : asHexVec (word width n) = some (toLeBytes width n) :=
    asHexVec_hexVec (Peal.Links.toLeBytes_lt width n)
  simp [asWord, hbytes, Peal.Links.toLeBytes_length, Peal.Links.fromLeBytes_toLeBytes h, guard]

lemma asFr_fr {x : Nat} (h : x < Peal.Links.MODULUS) : asFr (fr x) = some x := by
  have hwide : x < 256 ^ 32 := h.trans (by decide)
  have hbytes : hexDecode (hexEncode (toLeBytes 32 x)) = some (toLeBytes 32 x) :=
    Peal.Links.hexDecode_hexEncode (Peal.Links.toLeBytes_lt 32 x)
  show frFromHex (hexEncode (toLeBytes 32 x)) = some x
  simp [frFromHex, hbytes, Peal.Links.toLeBytes_length, Peal.Links.fromLeBytes_toLeBytes hwide, h]

lemma asUint_num {bits n : Nat} (h : n < 2 ^ bits) : asUint bits (.num n) = some n := if_pos h

lemma readRegister_fields {env : RegisterEnvelope} (h : RegisterTyped env) :
    readRegister (envelopeFields (.register env)) = some env := by
  have hnamespace : (field (envelopeFields (.register env)) "namespace".toList).bind (asWord 32) =
    some env.namespaceId := asWord_word h.namespaceId
  have hpubkey : (field (envelopeFields (.register env)) "pubkey".toList).bind (asWord 32) = some env.pubkey :=
    asWord_word h.pubkey
  have hrandomness : (field (envelopeFields (.register env)) "randomness".toList).bind asFr = some env.randomness :=
    asFr_fr h.randomness
  have hsignature : (field (envelopeFields (.register env)) "signature".toList).bind (asWord 64) =
    some env.signature := asWord_word h.signature
  simp only [readRegister, hnamespace, hpubkey, hrandomness, hsignature]
  rfl

lemma readOp_fields {env : OpEnvelope} (h : OpTyped env) : readOp (envelopeFields (.op env)) = some env := by
  have hnamespace : (field (envelopeFields (.op env)) "namespace".toList).bind (asWord 32) = some env.namespaceId :=
    asWord_word h.namespaceId
  have hcircuit : (field (envelopeFields (.op env)) "circuit_id".toList).bind (asWord 32) = some env.circuitId :=
    asWord_word h.circuitId
  have haccount : (field (envelopeFields (.op env)) "account".toList).bind asFr = some env.account := asFr_fr h.account
  have hcom : (field (envelopeFields (.op env)) "com".toList).bind asFr = some env.com := asFr_fr h.com
  have hnew : (field (envelopeFields (.op env)) "com_new".toList).bind asFr = some env.comNew := asFr_fr h.comNew
  have hreceipt : (field (envelopeFields (.op env)) "receipt".toList).bind asFr = some env.receipt := asFr_fr h.receipt
  have hroot : (field (envelopeFields (.op env)) "root".toList).bind asFr = some env.root := asFr_fr h.root
  have hproof : (field (envelopeFields (.op env)) "proof".toList).bind asHexVec = some env.proof :=
    asHexVec_hexVec h.proof
  have hpubkey : (field (envelopeFields (.op env)) "pubkey".toList).bind (asWord 32) = some env.pubkey :=
    asWord_word h.pubkey
  have hsignature : (field (envelopeFields (.op env)) "signature".toList).bind (asWord 64) = some env.signature :=
    asWord_word h.signature
  simp only [readOp, hnamespace, hcircuit, haccount, hcom, hnew, hreceipt, hroot, hproof, hpubkey, hsignature]
  rfl

lemma readIntent_fields {intent : DepositIntent} (h : IntentTyped intent) :
    readIntent (intentFields intent) = some intent := by
  have hnamespace : (field (intentFields intent) "namespace".toList).bind (asWord 32) = some intent.namespaceId :=
    asWord_word h.namespaceId
  have hcircuit : (field (intentFields intent) "circuit_id".toList).bind (asWord 32) = some intent.circuitId :=
    asWord_word h.circuitId
  have hamount : (field (intentFields intent) "amount".toList).bind (asUint 64) = some intent.amount :=
    asUint_num h.amount
  have hreceipt : (field (intentFields intent) "receipt".toList).bind asFr = some intent.receipt := asFr_fr h.receipt
  have hproof : (field (intentFields intent) "proof".toList).bind asHexVec = some intent.proof :=
    asHexVec_hexVec h.proof
  simp only [readIntent, hnamespace, hcircuit, hamount, hreceipt, hproof]
  rfl

lemma readMint_fields {env : MintEnvelope} (h : IntentTyped env.intent) :
    readMint (envelopeFields (.mint env)) = some env := by
  have hintent : (field (envelopeFields (.mint env)) "intent".toList).bind asFields = some (intentFields env.intent) := rfl
  have hdeposit : (field (envelopeFields (.mint env)) "deposit_id".toList).bind asText = some env.depositId := rfl
  simp only [readMint, hintent, hdeposit, Option.bind_eq_bind, Option.bind_some, readIntent_fields h]
  rfl

lemma readEnvelope_fields {envelope : Envelope} (h : EnvelopeTyped envelope) :
    readEnvelope (envelopeFields envelope) = some envelope := by
  cases envelope with
  | register env =>
    have hkind : (field (envelopeFields (.register env)) "kind".toList).bind asText = some "register".toList := rfl
    simp only [readEnvelope, hkind, Option.bind_eq_bind, Option.bind_some, if_true, readRegister_fields h]
    rfl
  | op env =>
    have hkind : (field (envelopeFields (.op env)) "kind".toList).bind asText = some "op".toList := rfl
    simp only [readEnvelope, hkind, Option.bind_eq_bind, Option.bind_some]
    rw [if_neg (by decide), if_pos trivial, readOp_fields h]
    rfl
  | mint env =>
    have hkind : (field (envelopeFields (.mint env)) "kind".toList).bind asText = some "mint".toList := rfl
    simp only [readEnvelope, hkind, Option.bind_eq_bind, Option.bind_some]
    rw [if_neg (by decide), if_neg (by decide), if_pos trivial, readMint_fields h]
    rfl

lemma readTx_value {tx : Tx} (h : TxTyped tx) : readTx (txValue tx) = some tx := by
  have hfields : asFields (txValue tx) = some (txFields tx) := rfl
  have hnamespace : (field (txFields tx) "namespace".toList).bind (asWord 32) = some tx.namespaceId := asWord_word h.1
  have henvelope : (field (txFields tx) "envelope".toList).bind asFields = some (envelopeFields tx.envelope) := rfl
  simp only [readTx, hfields, hnamespace, henvelope, Option.bind_eq_bind, Option.bind_some, readEnvelope_fields h.2]
  rfl

lemma mapM_readTx {txs : List Tx} (h : ∀ tx ∈ txs, TxTyped tx) : (txs.map txValue).mapM readTx = some txs := by
  induction txs with
  | nil => rfl
  | cons tx txs ih =>
    rw [List.map_cons, List.mapM_cons, readTx_value (h tx List.mem_cons_self),
      ih fun t ht => h t (List.mem_cons_of_mem _ ht)]
    rfl

structure BlockTyped (block : Block) : Prop where
  version : block.version < 2 ^ 8
  epoch : block.epoch < 2 ^ 64
  view : block.view < 2 ^ 64
  height : block.height < 2 ^ 64
  parent : block.parent < 256 ^ 32
  txs : ∀ tx ∈ block.txs, TxTyped tx

lemma readBlock_fields {block : Block} (h : BlockTyped block) : readBlock (.obj (blockFields block)) = some block := by
  have hfields : asFields (.obj (blockFields block)) = some (blockFields block) := rfl
  have hversion : (field (blockFields block) "version".toList).bind (asUint 8) = some block.version :=
    asUint_num h.version
  have hepoch : (field (blockFields block) "epoch".toList).bind (asUint 64) = some block.epoch := asUint_num h.epoch
  have hview : (field (blockFields block) "view".toList).bind (asUint 64) = some block.view := asUint_num h.view
  have hheight : (field (blockFields block) "height".toList).bind (asUint 64) = some block.height := asUint_num h.height
  have hparent : (field (blockFields block) "parent".toList).bind (asWord 32) = some block.parent :=
    asWord_word h.parent
  have htxs : (field (blockFields block) "txs".toList).bind asItems = some (block.txs.map txValue) := rfl
  simp only [readBlock, hfields, hversion, hepoch, hview, hheight, hparent, htxs, Option.bind_eq_bind, Option.bind_some,
    mapM_readTx h.txs]
  rfl

lemma fromBytes_toBytes (v : Value) : fromBytes (toBytes v) = some v := by
  rw [fromBytes, toBytes, Utf8.decode_encode, Option.bind_some, parse_render]

/-- A transaction is read back from its bytes. -/
theorem parseTx_encodeTx {tx : Tx} (h : TxTyped tx) : parseTx (encodeTx tx) = .ok tx := by
  rw [parseTx, encodeTx, fromBytes_toBytes, Option.bind_some, readTx_value h]
  rfl

/-- A block is read back from its bytes. -/
theorem parseBlock_encodeBlock {block : Block} (h : BlockTyped block) : parseBlock (encodeBlock block) = .ok block := by
  rw [parseBlock, encodeBlock, fromBytes_toBytes, Option.bind_some, readBlock_fields h]
  rfl

/-! ### What is read has the widths of its types -/

lemma fromLeBytes_lt {bytes : Bytes} (h : ∀ b ∈ bytes, b < 256) : fromLeBytes bytes < 256 ^ bytes.length := by
  induction bytes with
  | nil => decide
  | cons b bytes ih =>
    have hb := h b List.mem_cons_self
    have hrest := ih fun c hc => h c (List.mem_cons_of_mem _ hc)
    rw [Peal.Links.fromLeBytes_cons, List.length_cons, Nat.pow_succ]
    omega

lemma asHexVec_lt {v : Value} {bytes : Bytes} (h : asHexVec v = some bytes) : ∀ b ∈ bytes, b < 256 := by
  obtain ⟨s, -, hs⟩ := Option.bind_eq_some_iff.mp h
  exact Peal.Links.hexDecode_lt hs

lemma asWord_lt {width : Nat} {v : Value} {n : Nat} (h : asWord width v = some n) : n < 256 ^ width := by
  simp only [asWord, Option.bind_eq_bind, Option.bind_eq_some_iff, guard, Option.pure_def] at h
  obtain ⟨bytes, hbytes, u, hlength, heq⟩ := h
  split at hlength
  · next hwidth =>
    obtain rfl := Option.some.inj heq
    rw [← hwidth]
    exact fromLeBytes_lt (asHexVec_lt hbytes)
  · cases hlength

lemma asFr_lt {v : Value} {x : Nat} (h : asFr v = some x) : x < Peal.Links.MODULUS := by
  obtain ⟨s, -, hs⟩ := Option.bind_eq_some_iff.mp h
  simp only [frFromHex, Option.bind_eq_bind, Option.bind_eq_some_iff] at hs
  obtain ⟨bytes, -, hvalue⟩ := hs
  split at hvalue
  · next hbound =>
    obtain rfl := Option.some.inj hvalue
    exact hbound.2
  · cases hvalue

lemma asUint_lt {bits : Nat} {v : Value} {n : Nat} (h : asUint bits v = some n) : n < 2 ^ bits := by
  unfold asUint at h
  split at h
  · split at h
    · next hlt =>
      obtain rfl := Option.some.inj h
      exact hlt
    · cases h
  · cases h

lemma readRegister_typed {fields : List (Text × Value)} {env : RegisterEnvelope}
    (h : readRegister fields = some env) : RegisterTyped env := by
  simp only [readRegister, Option.bind_eq_bind, Option.bind_eq_some_iff, Option.pure_def, Option.some.injEq] at h
  obtain ⟨n, ⟨_, -, hn⟩, p, ⟨_, -, hp⟩, r, ⟨_, -, hr⟩, s, ⟨_, -, hs⟩, rfl⟩ := h
  exact ⟨asWord_lt hn, asWord_lt hp, asFr_lt hr, asWord_lt hs⟩

lemma readOp_typed {fields : List (Text × Value)} {env : OpEnvelope} (h : readOp fields = some env) :
    OpTyped env := by
  simp only [readOp, Option.bind_eq_bind, Option.bind_eq_some_iff, Option.pure_def, Option.some.injEq] at h
  obtain ⟨n, ⟨_, -, hn⟩, c, ⟨_, -, hc⟩, a, ⟨_, -, ha⟩, m, ⟨_, -, hm⟩, m', ⟨_, -, hm'⟩, r, ⟨_, -, hr⟩, t, ⟨_, -, ht⟩,
    p, ⟨_, -, hp⟩, k, ⟨_, -, hk⟩, s, ⟨_, -, hs⟩, rfl⟩ := h
  exact ⟨asWord_lt hn, asWord_lt hc, asFr_lt ha, asFr_lt hm, asFr_lt hm', asFr_lt hr, asFr_lt ht, asHexVec_lt hp,
    asWord_lt hk, asWord_lt hs⟩

lemma readIntent_typed {fields : List (Text × Value)} {intent : DepositIntent}
    (h : readIntent fields = some intent) : IntentTyped intent := by
  simp only [readIntent, Option.bind_eq_bind, Option.bind_eq_some_iff, Option.pure_def, Option.some.injEq] at h
  obtain ⟨n, ⟨_, -, hn⟩, c, ⟨_, -, hc⟩, a, ⟨_, -, ha⟩, r, ⟨_, -, hr⟩, p, ⟨_, -, hp⟩, rfl⟩ := h
  exact ⟨asWord_lt hn, asWord_lt hc, asUint_lt ha, asFr_lt hr, asHexVec_lt hp⟩

lemma readEnvelope_typed {fields : List (Text × Value)} {envelope : Envelope}
    (h : readEnvelope fields = some envelope) : EnvelopeTyped envelope := by
  obtain ⟨kind, -, h⟩ := Option.bind_eq_some_iff.mp h
  split at h
  · obtain ⟨env, henv, rfl⟩ := Option.map_eq_some_iff.mp h
    exact readRegister_typed henv
  · split at h
    · obtain ⟨env, henv, rfl⟩ := Option.map_eq_some_iff.mp h
      exact readOp_typed henv
    · split at h
      · obtain ⟨env, henv, rfl⟩ := Option.map_eq_some_iff.mp h
        simp only [readMint, Option.bind_eq_bind, Option.bind_eq_some_iff, Option.pure_def, Option.some.injEq] at henv
        obtain ⟨_, -, intent, hintent, _, -, rfl⟩ := henv
        exact readIntent_typed hintent
      · cases h

lemma parseTx_typed {bytes : Bytes} {tx : Tx} (h : parseTx bytes = .ok tx) : TxTyped tx := by
  obtain ⟨v, -, hv⟩ := Option.bind_eq_some_iff.mp (expect_eq_ok.mp h)
  simp only [readTx, Option.bind_eq_bind, Option.bind_eq_some_iff, Option.pure_def, Option.some.injEq] at hv
  obtain ⟨fields, -, n, ⟨_, -, hn⟩, _, -, envelope, henvelope, rfl⟩ := hv
  exact ⟨asWord_lt hn, readEnvelope_typed henvelope⟩

/-! ### Sizes -/

lemma hexDigit_plain {d : Nat} (h : d < 16) :
    escape (Peal.Links.hexDigit d) = [Peal.Links.hexDigit d] ∧ (Peal.Links.hexDigit d).toNat < 128 := by
  have hall : ∀ d : Fin 16, escape (Peal.Links.hexDigit d) = [Peal.Links.hexDigit d] ∧
      (Peal.Links.hexDigit d).toNat < 128 := by decide
  exact hall ⟨d, h⟩

lemma size_hexVec {bytes : Bytes} (h : ∀ b ∈ bytes, b < 256) : size (hexVec bytes) = 2 * bytes.length + 2 := by
  have hplain : ∀ c ∈ hexEncode bytes, escape c = [c] ∧ c.toNat < 128 := by
    intro c hc
    obtain ⟨b, hb, hmem⟩ := List.mem_flatMap.mp hc
    have hlt := h b hb
    simp only [List.mem_cons, List.not_mem_nil, or_false] at hmem
    rcases hmem with rfl | rfl
    · exact hexDigit_plain (by omega)
    · exact hexDigit_plain (by omega)
  have hlength : (hexEncode bytes).length = 2 * bytes.length := by
    rw [hexEncode, List.length_flatMap]
    simp [Nat.mul_comm]
  rw [hexVec, size_str_plain hplain, hlength]

lemma size_word (width n : Nat) : size (word width n) = 2 * width + 2 := by
  have hsize := size_hexVec (Peal.Links.toLeBytes_lt width n)
  rw [Peal.Links.toLeBytes_length] at hsize
  exact hsize

lemma size_fr (x : Nat) : size (fr x) = 66 := size_word 32 x

/-- The block's own fields take fewer bytes than a proposal counts for them. -/
theorem encodeBlock_length_le {block : Block} (h : BlockTyped block) (hversion : block.version < 10) :
    (encodeBlock block).length ≤ 186 + (block.txs.map fun tx => (encodeTx tx).length + 1).sum := by
  have hv : size (.num block.version) ≤ 1 := size_num_le (by decide) hversion
  have he : size (.num block.epoch) ≤ 20 := size_num_le (by decide) (h.epoch.trans (by decide))
  have hw : size (.num block.view) ≤ 20 := size_num_le (by decide) (h.view.trans (by decide))
  have hh : size (.num block.height) ≤ 20 := size_num_le (by decide) (h.height.trans (by decide))
  have htxs := size_arr_le (block.txs.map txValue)
  rw [List.map_map] at htxs
  have hkeys : size (.str "version".toList) = 9 ∧ size (.str "epoch".toList) = 7 ∧ size (.str "view".toList) = 6 ∧
      size (.str "height".toList) = 8 ∧ size (.str "parent".toList) = 8 ∧ size (.str "txs".toList) = 5 := by decide
  obtain ⟨hk₁, hk₂, hk₃, hk₄, hk₅, hk₆⟩ := hkeys
  have hobj := size_obj_le (blockFields block)
  simp only [blockFields, List.map_cons, List.map_nil, List.sum_cons, List.sum_nil, fieldSize, hk₁, hk₂, hk₃, hk₄, hk₅,
    hk₆, size_word] at hobj
  have hsum : (block.txs.map ((fun v => size v + 1) ∘ txValue)).sum =
      (block.txs.map fun tx => (encodeTx tx).length + 1).sum := rfl
  rw [hsum] at htxs
  show size (.obj (blockFields block)) ≤ _
  simp only [blockFields]
  omega

lemma encode_length (s : Text) : (Utf8.encode s).length = Peal.Links.Ledger.textLen s := by
  induction s with
  | nil => rfl
  | cons c s ih =>
    have hc : (Utf8.encodeChar c).length = c.utf8Size := by
      have hval : c.val.toNat = c.toNat := rfl
      simp only [Utf8.encodeChar, Utf8.encodeScalar, Char.utf8Size, UInt32.le_iff_toNat_le, hval]
      split_ifs <;> simp_all <;> omega
    rw [encode_cons_length, hc, ih]
    simp [Peal.Links.Ledger.textLen]

/-- The proof has the length of proofs, and a deposit id the length of deposit ids. -/
def Shaped : Envelope → Prop
  | .register _ => True
  | .op env => env.proof.length = Peal.Links.PROOF_BYTES
  | .mint env => env.intent.proof.length = Peal.Links.PROOF_BYTES ∧ Peal.Links.Ledger.textLen env.depositId ≤ 200

lemma size_envelope_le {envelope : Envelope} (h : EnvelopeTyped envelope) (hshaped : Shaped envelope) :
    size (.obj (envelopeFields envelope)) ≤ 4096 := by
  have hobj := size_obj_le (envelopeFields envelope)
  have hkeys : size (.str "kind".toList) = 6 ∧ size (.str "namespace".toList) = 11 ∧
      size (.str "circuit_id".toList) = 12 ∧ size (.str "proof".toList) = 7 ∧ size (.str "pubkey".toList) = 8 ∧
      size (.str "signature".toList) = 11 ∧ size (.str "receipt".toList) = 9 := by decide
  obtain ⟨hkind, hnamespace, hcircuit, hproof, hpubkey, hsignature, hreceipt⟩ := hkeys
  cases envelope with
  | register env =>
    have hown : size (.str "register".toList) = 10 ∧ size (.str "randomness".toList) = 12 := by decide
    simp only [envelopeFields, registerFields, List.map_cons, List.map_nil, List.sum_cons, List.sum_nil, fieldSize,
      size_word, size_fr, hkind, hnamespace, hpubkey, hsignature, hown] at hobj
    simp only [envelopeFields, registerFields]
    omega
  | op env =>
    have hown : size (.str "op".toList) = 4 ∧ size (.str "account".toList) = 9 ∧ size (.str "com".toList) = 5 ∧
        size (.str "com_new".toList) = 9 ∧ size (.str "root".toList) = 6 := by decide
    have hbytes := size_hexVec h.proof
    rw [show env.proof.length = 128 from hshaped] at hbytes
    simp only [envelopeFields, opFields, List.map_cons, List.map_nil, List.sum_cons, List.sum_nil, fieldSize, size_word,
      size_fr, hbytes, hkind, hnamespace, hcircuit, hproof, hpubkey, hsignature, hreceipt, hown] at hobj
    simp only [envelopeFields, opFields]
    omega
  | mint env =>
    have hown : size (.str "mint".toList) = 6 ∧ size (.str "intent".toList) = 8 ∧ size (.str "amount".toList) = 8 ∧
        size (.str "deposit_id".toList) = 12 := by decide
    have hbytes := size_hexVec (IntentTyped.proof h)
    rw [show env.intent.proof.length = 128 from hshaped.1] at hbytes
    have hamount : size (.num env.intent.amount) ≤ 20 :=
      size_num_le (by decide) ((IntentTyped.amount h).trans (by decide))
    have hdeposit := size_str_le env.depositId
    rw [encode_length] at hdeposit
    have hlen := hshaped.2
    have hintent := size_obj_le (intentFields env.intent)
    simp only [intentFields, List.map_cons, List.map_nil, List.sum_cons, List.sum_nil, fieldSize, size_word, size_fr,
      hbytes, hnamespace, hcircuit, hproof, hreceipt, hown] at hintent
    simp only [envelopeFields, mintFields, intentFields, List.map_cons, List.map_nil, List.sum_cons, List.sum_nil,
      fieldSize, hkind, hown] at hobj
    simp only [envelopeFields, mintFields, intentFields]
    omega

/-- A transaction that passes the checks is no larger than a validator takes. -/
theorem encodeTx_length_le {tx : Tx} (h : TxTyped tx) (hshaped : Shaped tx.envelope) :
    (encodeTx tx).length ≤ MAX_TX_BYTES := by
  have henvelope := size_envelope_le h.2 hshaped
  have hkeys : size (.str "namespace".toList) = 11 ∧ size (.str "envelope".toList) = 10 := by decide
  have hobj := size_obj_le (txFields tx)
  simp only [txFields, List.map_cons, List.map_nil, List.sum_cons, List.sum_nil, fieldSize, size_word, hkeys] at hobj
  show size (.obj (txFields tx)) ≤ 16 * 1024
  simp only [txFields]
  omega

end Peal.Consensus
