import Peal.Library.Encoding
import Peal.Library.Sha256
import Peal.Links.DepositId

namespace Peal.Bte
open Peal.Fallible Peal.Encoding Peal.Sha256
open Peal.Links (toLeBytes fromLeBytes toLeBytes_length toLeBytes_lt toLeBytes_fromLeBytes fromLeBytes_toLeBytes)

/-! # The wire format BTE0 -/

abbrev Bytes := List UInt8

inductive BteError where
  | payloadTooLarge
  | wire (what : String)
  deriving DecidableEq, Repr

/-- The compressed serialization of group elements or scalars: so many bytes, and each element has exactly one
accepted encoding. -/
structure Canonical (G : Type) (width : Nat) where
  serialize : G → Bytes
  deserialize : Bytes → Option G
  serialize_length : ∀ x, (serialize x).length = width
  deserialize_serialize : ∀ x, deserialize (serialize x) = some x
  serialize_of_deserialize : ∀ bytes x, deserialize bytes = some x → serialize x = bytes

def G1_BYTES : Nat := 48
def G2_BYTES : Nat := 96
def GT_BYTES : Nat := 576
def SCALAR_BYTES : Nat := 32

/-- The groups of the pairing and their scalars. -/
structure Curve where
  G1 : Type
  G2 : Type
  GT : Type
  Fr : Type
  g1 : Canonical G1 G1_BYTES
  g2 : Canonical G2 G2_BYTES
  gt : Canonical GT GT_BYTES
  scalar : Canonical Fr SCALAR_BYTES

def BTE_WIRE_V0 : Bytes := [0x42, 0x54, 0x45, 0x30]
def TYPE_SEALED_CIPHERTEXT : UInt8 := 0x01
def TYPE_SHARE : UInt8 := 0x02
def TYPE_PUBLIC_PARAMS : UInt8 := 0x03
def TYPE_OPERATOR_SECRET : UInt8 := 0x04

def MAX_PAYLOAD_BYTES : Nat := 5 * 1024 * 1024

def toLe (width n : Nat) : Bytes := (toLeBytes width n).map UInt8.ofNat

def fromLe (bytes : Bytes) : Nat := fromLeBytes (bytes.map UInt8.toNat)

/-! ### The reader -/

structure Reader where
  buf : Bytes
  pos : Nat
  inside : pos ≤ buf.length

namespace Reader

abbrev Read := StateT Reader (Except BteError)

def start (buf : Bytes) : Reader := ⟨buf, 0, Nat.zero_le _⟩

def rest (r : Reader) : Bytes := r.buf.drop r.pos

lemma skip_inside {r : Reader} {n : Nat} (h : ¬r.buf.length - r.pos < n) : r.pos + n ≤ r.buf.length := by
  have hinside := r.inside
  omega

lemma take_size {r : Reader} {n : Nat} (h : ¬r.buf.length - r.pos < n) :
    ((r.buf.drop r.pos).take n).toArray.size = n := by
  rw [List.size_toArray, List.length_take, List.length_drop]
  omega

def skip (r : Reader) (n : Nat) (h : ¬r.buf.length - r.pos < n) : Reader := ⟨r.buf, r.pos + n, skip_inside h⟩

def take (n : Nat) : Read Bytes := fun r =>
  if h : r.buf.length - r.pos < n then .error (.wire "truncated")
  else .ok ((r.buf.drop r.pos).take n, r.skip n h)

/-- A `take` whose result is an array of that many bytes. -/
def takeArray (n : Nat) : Read (Vector UInt8 n) := fun r =>
  if h : r.buf.length - r.pos < n then .error (.wire "truncated")
  else .ok (⟨((r.buf.drop r.pos).take n).toArray, take_size h⟩, r.skip n h)

def u8 : Read UInt8 := do
  let bytes ← take 1
  return bytes.headD 0

def u16 : Read UInt16 := do
  let bytes ← take 2
  return UInt16.ofNat (fromLe bytes)

def u32 : Read UInt32 := do
  let bytes ← take 4
  return UInt32.ofNat (fromLe bytes)

/-- An element of one of the groups, or a scalar. -/
def element {G : Type} {width : Nat} (codec : Canonical G width) (what : String) : Read G := do
  let bytes ← take width
  expect (codec.deserialize bytes) (BteError.wire what)

def g1 (c : Curve) : Read c.G1 := element c.g1 "invalid G1 point"
def g2 (c : Curve) : Read c.G2 := element c.g2 "invalid G2 point"
def gt (c : Curve) : Read c.GT := element c.gt "invalid G_T element"
def scalar (c : Curve) : Read c.Fr := element c.scalar "invalid scalar"

/-- The header that `Reader::new` reads. -/
def header (expectedType : UInt8) : Read Unit := do
  let magic ← take 4
  require (magic = BTE_WIRE_V0) (BteError.wire "bad magic, expected BTE0")
  let ty ← u8
  require (ty = expectedType) (BteError.wire "unexpected wire type byte")

def finish (r : Reader) : Except BteError Unit :=
  require (r.pos = r.buf.length) (BteError.wire "trailing bytes")

/-- A whole wire value: its header, its fields and nothing after them. -/
def whole {α : Type} (ty : UInt8) (fields : Read α) (bytes : Bytes) : Except BteError α := do
  let (x, r) ← (do header ty; fields : Read α).run (start bytes)
  finish r
  return x

end Reader

open Reader

def writeHeader (ty : UInt8) : Bytes := BTE_WIRE_V0 ++ [ty]

/-! ### Sealed ciphertexts -/

structure SealedCiphertext (c : Curve) where
  ct0 : c.G1
  ct1 : Vector UInt8 16
  ct2 : Bytes

namespace SealedCiphertext

variable {c : Curve}

def toBytes (x : SealedCiphertext c) : Bytes :=
  writeHeader TYPE_SEALED_CIPHERTEXT ++ c.g1.serialize x.ct0 ++ x.ct1.toList ++ toLe 4 x.ct2.length ++ x.ct2

def fields : Read (SealedCiphertext c) := do
  let ct0 ← g1 c
  let ct1 ← takeArray 16
  let len ← u32
  require (len.toNat ≤ MAX_PAYLOAD_BYTES) BteError.payloadTooLarge
  let ct2 ← take len.toNat
  return ⟨ct0, ct1, ct2⟩

def fromBytes (bytes : Bytes) : Except BteError (SealedCiphertext c) := whole TYPE_SEALED_CIPHERTEXT fields bytes

end SealedCiphertext

/-! ### Shares -/

structure Share (c : Curve) where
  partyIndex : UInt16
  value : c.G1

namespace Share

variable {c : Curve}

def toBytes (x : Share c) : Bytes :=
  writeHeader TYPE_SHARE ++ toLe 2 x.partyIndex.toNat ++ c.g1.serialize x.value

def fields : Read (Share c) := do
  let partyIndex ← u16
  let value ← g1 c
  return ⟨partyIndex, value⟩

def fromBytes (bytes : Bytes) : Except BteError (Share c) := whole TYPE_SHARE fields bytes

end Share

/-! ### Public parameters -/

structure EncryptionKey (c : Curve) where
  e : c.GT

structure PublicParams (c : Curve) where
  n : UInt16
  t : UInt16
  b : UInt32
  ek : EncryptionKey c
  powersOfH : List c.G2
  verificationKeys : List (List c.G2)
  digest : List Nat

namespace PublicParams

variable {c : Curve}

def toBytes (x : PublicParams c) : Bytes :=
  writeHeader TYPE_PUBLIC_PARAMS ++ toLe 2 x.n.toNat ++ toLe 2 x.t.toNat ++ toLe 4 x.b.toNat ++ c.gt.serialize x.ek.e ++
    toLe 4 x.powersOfH.length ++ x.powersOfH.flatMap c.g2.serialize ++
    x.verificationKeys.flatMap fun party => party.flatMap c.g2.serialize

/-- The parameters with the digest of their own bytes, which leaves the digest out. -/
def assemble (n t : UInt16) (b : UInt32) (ek : EncryptionKey c) (powersOfH : List c.G2)
    (verificationKeys : List (List c.G2)) : PublicParams c :=
  let p : PublicParams c := ⟨n, t, b, ek, powersOfH, verificationKeys, []⟩
  { p with digest := sha256 (p.toBytes.map UInt8.toNat) }

def fields : Read (PublicParams c) := do
  let n ← u16
  let t ← u16
  let b ← u32
  require (¬(n = 0 ∨ t = 0 ∨ t > n ∨ b = 0)) (BteError.wire "invalid committee parameters")
  let e ← gt c
  let hCount ← u32
  require (hCount.toNat = 2 * b.toNat + 1) (BteError.wire "powers_of_h count must be 2B+1")
  let powersOfH ← many (g2 c) hCount.toNat
  let verificationKeys ← many (many (g2 c) b.toNat) n.toNat
  return assemble n t b ⟨e⟩ powersOfH verificationKeys

def fromBytes (bytes : Bytes) : Except BteError (PublicParams c) := whole TYPE_PUBLIC_PARAMS fields bytes

end PublicParams

/-! ### Operator secrets -/

structure OperatorSecret (c : Curve) where
  partyIndex : UInt16
  shares : List c.Fr

namespace OperatorSecret

variable {c : Curve}

def toBytes (x : OperatorSecret c) : Bytes :=
  writeHeader TYPE_OPERATOR_SECRET ++ toLe 2 x.partyIndex.toNat ++ toLe 4 x.shares.length ++
    x.shares.flatMap c.scalar.serialize

def fields : Read (OperatorSecret c) := do
  let partyIndex ← u16
  require (¬partyIndex = 0) (BteError.wire "party index is 1-based")
  let count ← u32
  let shares ← many (scalar c) count.toNat
  return ⟨partyIndex, shares⟩

def fromBytes (bytes : Bytes) : Except BteError (OperatorSecret c) := whole TYPE_OPERATOR_SECRET fields bytes

end OperatorSecret

end Peal.Bte
