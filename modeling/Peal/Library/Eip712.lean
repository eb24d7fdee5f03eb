import Peal.Library.Sha256
import Peal.Library.Utf8

namespace Peal.Eip712
open Peal.Sha256 (toBytes toBytes_length)

/-! # Typed structured data and its digest (EIP-712)

Structs of atomic and string members, over the hash and over what the texts of byte strings and addresses spell. -/

inductive FieldType where
  | uint (bits : Nat)
  | address
  | bytes32
  | string
  | bool
  deriving DecidableEq, Repr

structure Member where
  name : String
  type : FieldType
  deriving DecidableEq, Repr

inductive Value where
  | number (n : Int)
  | hex (s : List Char)
  | text (s : List Char)
  | flag (b : Bool)
  deriving DecidableEq, Repr

/-- The fields a domain names are those it is hashed over. -/
structure Domain where
  name : Option (List Char)
  version : Option (List Char)
  chainId : Option Int
  verifyingContract : Option (List Char)

structure TypedData where
  domain : Domain
  primaryType : String
  members : List Member
  message : List (String × Value)

/-- How the texts of byte strings and of addresses are read. -/
structure Reading where
  bytes : List Char → Option (List Nat)
  address : List Char → Option (List Nat)

section Encoding

variable (hash : List Nat → List Nat) (read : Reading)

def word (n : Nat) : List Nat := toBytes 32 n

def textHash (s : List Char) : List Nat := hash (Utf8.encode s)

def FieldType.name : FieldType → List Char
  | .uint bits => "uint".toList ++ Nat.toDigits 10 bits
  | .address => "address".toList
  | .bytes32 => "bytes32".toList
  | .string => "string".toList
  | .bool => "bool".toList

def encodeType (primaryType : String) (members : List Member) : List Char :=
  primaryType.toList ++ '(' ::
    (",".toList.intercalate (members.map fun m => m.type.name ++ ' ' :: m.name.toList)) ++ [')']

def encodeField : FieldType → Value → Option (List Nat)
  | .uint bits, .number n => if 0 ≤ n ∧ n < 2 ^ bits then some (word n.toNat) else none
  | .address, .hex s => (read.address s).filter (·.length = 20) |>.map (List.replicate 12 0 ++ ·)
  | .bytes32, .hex s => (read.bytes s).filter (·.length = 32)
  | .string, .text s => some (textHash hash s)
  | .bool, .flag b => some (word (if b then 1 else 0))
  | _, _ => none

def encodeData (members : List Member) (message : List (String × Value)) : Option (List (List Nat)) :=
  members.mapM fun m => (message.lookup m.name).bind (encodeField hash read m.type)

/-- The hash of a struct, from the hash of its type and the words of its members. -/
def structHash (type : List Char) (words : List (List Nat)) : List Nat := hash (textHash hash type ++ words.flatten)

def hashStruct (primaryType : String) (members : List Member) (message : List (String × Value)) :
    Option (List Nat) :=
  (encodeData hash read members message).map (structHash hash (encodeType primaryType members))

def Domain.fields (d : Domain) : List (Member × Value) :=
  (d.name.map fun s => (⟨"name", .string⟩, .text s)).toList ++
    (d.version.map fun s => (⟨"version", .string⟩, .text s)).toList ++
    (d.chainId.map fun n => (⟨"chainId", .uint 256⟩, .number n)).toList ++
    (d.verifyingContract.map fun s => (⟨"verifyingContract", .address⟩, .hex s)).toList

def hashDomain (d : Domain) : Option (List Nat) :=
  hashStruct hash read "EIP712Domain" (d.fields.map Prod.fst) (d.fields.map fun f => (f.1.name, f.2))

/-- The digest of a domain separator and a struct hash. -/
def seal_ (separator structHash : List Nat) : List Nat := hash ([0x19, 0x01] ++ separator ++ structHash)

def TypedData.digest (t : TypedData) : Option (List Nat) := do
  let separator ← hashDomain hash read t.domain
  let message ← hashStruct hash read t.primaryType t.members t.message
  return seal_ hash separator message

/-- A number that does not fit the type it is encoded as. -/
def TypedData.Overflows (t : TypedData) : Prop :=
  ∃ m ∈ t.members, ∃ bits n, m.type = .uint bits ∧ t.message.lookup m.name = some (.number n) ∧ ¬(0 ≤ n ∧ n < 2 ^ bits)

/-- A library that hashes typed data: it computes the digest where there is one, and refuses numbers that do not fit. -/
structure Computes (hashTypedData : TypedData → Option (List Nat)) : Prop where
  digests : ∀ t d, t.digest hash read = some d → hashTypedData t = some d
  refuses : ∀ t : TypedData, t.Overflows → hashTypedData t = none

end Encoding

section Words

variable {hash : List Nat → List Nat} {read : Reading}

lemma word_length (n : Nat) : (word n).length = 32 := toBytes_length 32 n

@[simp] lemma encodeField_string (s : List Char) : encodeField hash read .string (.text s) = some (textHash hash s) :=
  rfl

@[simp] lemma encodeField_bool (b : Bool) : encodeField hash read .bool (.flag b) = some (word (if b then 1 else 0)) :=
  rfl

lemma encodeField_uint {bits : Nat} {n : Int} (h : 0 ≤ n ∧ n < 2 ^ bits) :
    encodeField hash read (.uint bits) (.number n) = some (word n.toNat) := if_pos h

lemma encodeField_bytes32 {s : List Char} {b : List Nat} (h : read.bytes s = some b) (hlength : b.length = 32) :
    encodeField hash read .bytes32 (.hex s) = some b := by
  simp [encodeField, h, hlength]

lemma encodeField_address {s : List Char} {b : List Nat} (h : read.address s = some b) (hlength : b.length = 20) :
    encodeField hash read .address (.hex s) = some (List.replicate 12 0 ++ b) := by
  simp [encodeField, h, hlength]

lemma encodeData_cons {name : String} {type : FieldType} {value : Value} {w : List Nat} {ws : List (List Nat)}
    {members : List Member} {message : List (String × Value)} (hlookup : message.lookup name = some value)
    (hfield : encodeField hash read type value = some w) (hrest : encodeData hash read members message = some ws) :
    encodeData hash read (⟨name, type⟩ :: members) message = some (w :: ws) := by
  unfold encodeData at hrest ⊢
  rw [List.mapM_cons, hrest, hlookup, Option.bind_some, hfield]
  rfl

lemma hashDomain_eq (name version : List Char) {chainId : Int} (h : 0 ≤ chainId ∧ chainId < 2 ^ 256) :
    hashDomain hash read ⟨some name, some version, some chainId, none⟩ =
      some (structHash hash "EIP712Domain(string name,string version,uint256 chainId)".toList
        [textHash hash name, textHash hash version, word chainId.toNat]) := by
  have htype : encodeType "EIP712Domain" [⟨"name", .string⟩, ⟨"version", .string⟩, ⟨"chainId", .uint 256⟩] =
      "EIP712Domain(string name,string version,uint256 chainId)".toList := by decide +kernel
  have hchain : encodeField hash read (.uint 256) (.number chainId) = some (word chainId.toNat) := encodeField_uint h
  rw [← htype]
  unfold hashDomain hashStruct encodeData
  simp [Domain.fields, List.lookup_cons, hchain]

lemma encodeData_eq_none {members : List Member} {message : List (String × Value)} {m : Member} (hm : m ∈ members)
    (h : (message.lookup m.name).bind (encodeField hash read m.type) = none) :
    encodeData hash read members message = none := by
  unfold encodeData
  induction members with
  | nil => cases hm
  | cons first members ih =>
    rw [List.mapM_cons]
    rcases List.mem_cons.mp hm with rfl | hrest
    · rw [h]
      rfl
    · rw [ih hrest]
      cases (message.lookup first.name).bind (encodeField hash read first.type) <;> rfl

/-- What does not fit has no digest. -/
theorem digest_overflows {t : TypedData} (h : t.Overflows) : t.digest hash read = none := by
  obtain ⟨m, hm, bits, n, htype, hlookup, hout⟩ := h
  have hfield : (t.message.lookup m.name).bind (encodeField hash read m.type) = none := by
    rw [hlookup, htype]
    exact if_neg hout
  unfold TypedData.digest hashStruct
  rw [encodeData_eq_none hm hfield]
  cases hashDomain hash read t.domain <;> rfl

theorem digest_computes : Computes hash read (TypedData.digest hash read) :=
  ⟨fun _ _ h => h, fun _ => digest_overflows⟩

lemma words_injective {ws ws' : List (List Nat)} (h : ∀ w ∈ ws, w.length = 32) (h' : ∀ w ∈ ws', w.length = 32)
    (hlength : ws.length = ws'.length) (heq : ws.flatten = ws'.flatten) : ws = ws' := by
  refine List.eq_iff_flatten_eq.mpr ⟨heq, ?_⟩
  rw [List.map_congr_left h, List.map_congr_left h', List.map_const', List.map_const', hlength]

end Words

end Peal.Eip712

namespace Peal.AbiBytes
open Peal.Sha256 (toBytes toBytes_length toBytes_lt)
open Peal.Eip712 (word word_length)

/-! # One dynamic argument of an ABI call -/

def fromBytes (bytes : List Nat) : Nat := bytes.foldl (fun acc b => 256 * acc + b) 0

/-- Zeros up to a multiple of 32 bytes. -/
def pad (bytes : List Nat) : List Nat := bytes ++ List.replicate ((32 - bytes.length % 32) % 32) 0

/-- The offset of the argument, its length, and its bytes. -/
def encode (bytes : List Nat) : List Nat := word 32 ++ (word bytes.length ++ pad bytes)

/-- The word at an offset; past the end there are zeros. -/
def wordAt (data : List Nat) (i : Nat) : Nat :=
  let held := (data.drop i).take 32
  fromBytes (held ++ List.replicate (32 - held.length) 0)

/-- The argument, where the offset and the length point inside the data. -/
def decode (data : List Nat) : Option (List Nat) := do
  guard (32 ≤ data.length)
  let offset := wordAt data 0
  guard (offset < 2 ^ 64 ∧ offset + 31 < data.length)
  let length := wordAt data offset
  guard (length < 2 ^ 64 ∧ offset + 32 + length ≤ data.length)
  return (data.drop (offset + 32)).take length

lemma fromBytes_append (xs ys : List Nat) : fromBytes (xs ++ ys) = 256 ^ ys.length * fromBytes xs + fromBytes ys := by
  have hacc : ∀ (ys : List Nat) (acc : Nat), ys.foldl (fun acc b => 256 * acc + b) acc =
      256 ^ ys.length * acc + fromBytes ys := by
    intro ys
    induction ys with
    | nil =>
      intro acc
      simp [fromBytes]
    | cons y ys ih =>
      intro acc
      have hcons : fromBytes (y :: ys) = 256 ^ ys.length * y + fromBytes ys := by
        rw [fromBytes, List.foldl_cons, ih, Nat.mul_zero, Nat.zero_add]
      rw [List.foldl_cons, ih, hcons, List.length_cons]
      ring
  unfold fromBytes
  rw [List.foldl_append, hacc]
  rfl

lemma fromBytes_toBytes (k n : Nat) : fromBytes (toBytes k n) = n % 256 ^ k := by
  induction k with
  | zero =>
    rw [pow_zero, Nat.mod_one]
    rfl
  | succ k ih =>
    have hsplit : toBytes (k + 1) n = [n / 256 ^ k % 256] ++ toBytes k n := rfl
    have hone : fromBytes [n / 256 ^ k % 256] = n / 256 ^ k % 256 := by simp [fromBytes]
    rw [hsplit, fromBytes_append, hone, ih, toBytes_length, pow_succ, Nat.mod_mul]
    ring

lemma fromBytes_word {n : Nat} (h : n < 2 ^ 256) : fromBytes (word n) = n := by
  rw [word, fromBytes_toBytes]
  exact Nat.mod_eq_of_lt (h.trans_eq (by norm_num))

lemma wordAt_append {front rest : List Nat} {n : Nat} (h : n < 2 ^ 256) :
    wordAt (front ++ (word n ++ rest)) front.length = n := by
  have htake : (List.drop front.length (front ++ (word n ++ rest))).take 32 = word n := by
    rw [List.drop_left, List.take_left' (word_length n)]
  unfold wordAt
  dsimp only
  rw [htake, word_length, Nat.sub_self, List.replicate_zero, List.append_nil, fromBytes_word h]

lemma encode_length (bytes : List Nat) : (encode bytes).length = 64 + (pad bytes).length := by
  rw [encode, List.length_append, List.length_append, word_length, word_length]
  omega

lemma length_le_pad (bytes : List Nat) : bytes.length ≤ (pad bytes).length := by
  rw [pad, List.length_append]
  exact Nat.le_add_right _ _

lemma drop_encode (bytes : List Nat) : (encode bytes).drop 64 = pad bytes := by
  rw [encode, ← List.append_assoc]
  refine List.drop_left' ?_
  rw [List.length_append, word_length, word_length]

lemma take_pad (bytes : List Nat) : (pad bytes).take bytes.length = bytes := List.take_left

theorem decode_encode {bytes : List Nat} (h : bytes.length < 2 ^ 64) : decode (encode bytes) = some bytes := by
  have hoffset : wordAt (encode bytes) 0 = 32 :=
    @wordAt_append [] (word bytes.length ++ pad bytes) 32 (by norm_num)
  have hlength : wordAt (encode bytes) 32 = bytes.length := by
    have hword := @wordAt_append (word 32) (pad bytes) bytes.length (h.trans (by norm_num : 2 ^ 64 < 2 ^ 256))
    rwa [word_length] at hword
  have hall := encode_length bytes
  have hpad := length_le_pad bytes
  unfold decode
  dsimp only
  rw [hoffset, hlength]
  rw [guard, if_pos (by omega), guard, if_pos (by omega), guard, if_pos (by omega)]
  show some ((List.drop 64 (encode bytes)).take bytes.length) = some bytes
  rw [drop_encode, take_pad]

lemma encode_lt {bytes : List Nat} (h : ∀ b ∈ bytes, b < 256) : ∀ b ∈ encode bytes, b < 256 := by
  intro b hb
  rw [encode, pad] at hb
  simp only [List.mem_append, List.mem_replicate] at hb
  rcases hb with hoffset | hlength | hbytes | ⟨-, rfl⟩
  · exact toBytes_lt hoffset
  · exact toBytes_lt hlength
  · exact h b hbytes
  · exact Nat.zero_lt_succ _

end Peal.AbiBytes
