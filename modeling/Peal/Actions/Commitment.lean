import Peal.Library.PromotedTree
import Peal.Library.Sha256
import Peal.Links.DepositId

namespace Peal.Actions
open Peal.Fallible Peal.PromotedTree Peal.Sha256
open Peal.Links (Text Bytes hexDecode hexEncode)

/-! # The ordering commitment an executor signs before a batch opens -/

inductive Error where
  | notHex
  | notDense (got : Int) (index : Nat)
  | emptyBatch
  | outsideBatch (position : Int)
  deriving DecidableEq, Repr

def utf8 (s : Text) : Bytes := (String.ofList s).toUTF8.data.toList.map UInt8.toNat

def toHex (bytes : Bytes) : Text := hexEncode bytes

def fromHex (hex : Text) : Except Error Bytes :=
  match hex with
  | '0' :: 'x' :: s => expect (hexDecode s) .notHex
  | s => expect (hexDecode s) .notHex

def digestsEqual (a b : Text) : Bool :=
  a.length == b.length && (List.zipWith (fun x y => x.toNat ^^^ y.toNat) a b).foldl (· ||| ·) 0 == 0

structure CommittedSlot where
  position : Int
  intentId : Text
  ciphertextHash : Text
  isDummy : Bool
  deriving DecidableEq, Repr

structure BatchCommitment where
  batchId : Text
  conditionId : Text
  orderingRoot : Text
  batchSize : Int
  encryptionKeyId : Text
  committer : Text
  committedAt : Int
  deriving DecidableEq, Repr

structure Sibling where
  hash : Text
  right : Bool
  deriving DecidableEq, Repr

structure InclusionProof where
  position : Int
  batchSize : Int
  siblings : List Sibling
  deriving DecidableEq, Repr

/-- What a leaf hashes: the identifier, a zero byte and the bytes of the ciphertext hash. -/
def orderingBuffer (intentId ciphertextHash : Text) : Except Error Bytes := do
  let ct ← fromHex ciphertextHash
  return utf8 intentId ++ 0 :: ct

def orderingLeaf (intentId ciphertextHash : Text) : Except Error Bytes := do
  let buf ← orderingBuffer intentId ciphertextHash
  return sha256 buf

def parent (left right : Bytes) : Bytes := sha256 (left ++ right)

def byPosition (slots : List CommittedSlot) : List CommittedSlot :=
  slots.insertionSort fun a b => a.position ≤ b.position

/-- The first slot whose position is not its index is refused. -/
def requireDense : Nat → List CommittedSlot → Except Error Unit
  | _, [] => .ok ()
  | i, s :: rest => do
    require (s.position = i) (.notDense s.position i)
    requireDense (i + 1) rest

def leaves (slots : List CommittedSlot) : Except Error (List Bytes) := do
  let ordered := byPosition slots
  requireDense 0 ordered
  ordered.mapM fun s => orderingLeaf s.intentId s.ciphertextHash

def computeOrderingRoot (slots : List CommittedSlot) : Except Error Text := do
  let level ← leaves slots
  let root ← expect (rootOf parent level) .emptyBatch
  return toHex root

/-- The sibling recorded while one level is hashed, the loop being at index `i`. -/
def levelSiblings (idx : Nat) : Nat → List Bytes → List Sibling
  | i, l :: r :: rest =>
    (if i = idx then [⟨toHex r, true⟩] else if i + 1 = idx then [⟨toHex l, false⟩] else []) ++
      levelSiblings idx (i + 2) rest
  | _, _ => []

def buildSiblings : Nat → List Bytes → Nat → List Sibling
  | 0, _, _ => []
  | fuel + 1, level, idx =>
    if 1 < level.length then
      levelSiblings idx 0 level ++ buildSiblings fuel (levelUp parent level) (idx / 2)
    else []

def buildInclusionProof (slots : List CommittedSlot) (position : Int) : Except Error InclusionProof := do
  let level ← leaves slots
  require (0 ≤ position ∧ position < level.length) (.outsideBatch position)
  return {
    position := position
    batchSize := level.length
    siblings := buildSiblings level.length level position.toNat }

def climbSiblings (node : Bytes) (siblings : List Sibling) : Except Error Bytes :=
  siblings.foldlM (fun node sib => do
    let s ← fromHex sib.hash
    return if sib.right then parent node s else parent s node) node

def verifyInclusion (intentId ciphertextHash : Text) (proof : InclusionProof) (root : Text) : Bool :=
  let attempt := do
    let node ← orderingLeaf intentId ciphertextHash
    let top ← climbSiblings node proof.siblings
    return digestsEqual (toHex top) root
  match attempt with
  | .ok equal => equal
  | .error _ => false

def decimal (n : Int) : Text := (toString n).toList

def BatchCommitment.lines (c : BatchCommitment) : List Text :=
  [ "peal.batch-commitment.v1".toList,
    c.batchId,
    c.conditionId,
    c.orderingRoot,
    decimal c.batchSize,
    c.encryptionKeyId,
    Peal.Links.toLowercase c.committer,
    decimal c.committedAt ]

def commitmentPreimage (c : BatchCommitment) : Text := ['\n'].intercalate c.lines

structure ExecutionReceipt where
  intentId : Text
  ciphertextHash : Text
  encryptionKeyId : Text
  batchId : Text
  batchPosition : Int
  batchSize : Int
  orderingRoot : Text
  inclusionProof : InclusionProof
  executorIdentity : Text
  commitmentTimestamp : Int
  deriving DecidableEq, Repr

structure CheckResult where
  name : String
  ok : Bool
  detail : Option String
  deriving DecidableEq, Repr

/-- The two results about inclusion in a receipt's report. -/
def inclusionChecks (r : ExecutionReceipt) : List CheckResult :=
  let positionOk :=
    r.inclusionProof.position == r.batchPosition && r.inclusionProof.batchSize == r.batchSize
  [ { name := "batchInclusion"
      ok := verifyInclusion r.intentId r.ciphertextHash r.inclusionProof r.orderingRoot
      detail := none },
    { name := "batchPosition"
      ok := positionOk
      detail :=
        if positionOk then none
        else some ("proof claims position " ++ toString r.inclusionProof.position ++ " of " ++
          toString r.inclusionProof.batchSize ++ ", receipt claims " ++ toString r.batchPosition ++ " of " ++
          toString r.batchSize) } ]

/-- The commitment a verifier rebuilds from a receipt to check the executor's signature; the condition is
the verifier's own. -/
def ExecutionReceipt.commitment (r : ExecutionReceipt) (conditionId : Text) : BatchCommitment where
  batchId := r.batchId
  conditionId := conditionId
  orderingRoot := r.orderingRoot
  batchSize := r.batchSize
  encryptionKeyId := r.encryptionKeyId
  committer := r.executorIdentity
  committedAt := r.commitmentTimestamp

lemma utf8_injective : Function.Injective utf8 := by
  intro s t h
  have hbytes : (String.ofList s).toUTF8.data.toList = (String.ofList t).toUTF8.data.toList :=
    List.map_injective_iff.mpr (fun _ _ => UInt8.toNat_inj.mp) h
  have hdata : (String.ofList s).toUTF8 = (String.ofList t).toUTF8 := ByteArray.ext (Array.toList_inj.mp hbytes)
  exact String.ofList_injective (String.toByteArray_inj.mp hdata)

lemma toHex_injective {a b : Bytes} (ha : ∀ x ∈ a, x < 256) (hb : ∀ x ∈ b, x < 256) (h : toHex a = toHex b) :
    a = b := by
  have hdecode := congrArg hexDecode h
  unfold toHex at hdecode
  rw [Peal.Links.hexDecode_hexEncode ha, Peal.Links.hexDecode_hexEncode hb] at hdecode
  exact Option.some.inj hdecode

lemma hexDigit_ne_x {n : Nat} (h : n < 16) : Peal.Links.hexDigit n ≠ 'x' := by
  have hall : ∀ d : Fin 16, Peal.Links.hexDigit d ≠ 'x' := by decide
  exact hall ⟨n, h⟩

lemma fromHex_toHex {bytes : Bytes} (h : ∀ x ∈ bytes, x < 256) : fromHex (toHex bytes) = .ok bytes := by
  have hdecode : hexDecode (toHex bytes) = some bytes := Peal.Links.hexDecode_hexEncode h
  cases bytes with
  | nil => rfl
  | cons b bytes =>
    have hx := hexDigit_ne_x (Nat.mod_lt b (show 0 < 16 by decide))
    unfold fromHex
    split
    case h_1 s heq =>
      have hsecond : Peal.Links.hexDigit (b % 16) = 'x' := by
        have := List.cons.inj (List.cons.inj heq).2
        exact this.1
      exact absurd hsecond hx
    case h_2 => rw [hdecode]; rfl

lemma parent_length (l r : Bytes) : (parent l r).length = 32 := sha256_length _

end Peal.Actions
