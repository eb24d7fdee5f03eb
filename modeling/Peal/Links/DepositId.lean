import Peal.Links.Types

namespace Peal.Links

/-! # Text as the node parses it -/

/-- The value of a digit in a radix, either case of a letter. -/
def toDigit (radix : Nat) (ch : Char) : Option Nat :=
  let value :=
    if '0' ≤ ch ∧ ch ≤ '9' then some (ch.toNat - '0'.toNat)
    else if 'a' ≤ ch ∧ ch ≤ 'z' then some (ch.toNat - 'a'.toNat + 10)
    else if 'A' ≤ ch ∧ ch ≤ 'Z' then some (ch.toNat - 'A'.toNat + 10)
    else none
  value.filter (· < radix)

/-- Digits of an unsigned 64-bit integer, failing on any other character and on overflow. -/
def parseDigits (radix : Nat) (s : Text) : Option Nat :=
  s.foldlM (fun acc ch => do
    let d ← toDigit radix ch
    if acc * radix + d < 2 ^ 64 then some (acc * radix + d) else none) 0

/-- A leading plus sign is accepted, and so are leading zeros. -/
def parseU64 (radix : Nat) : Text → Option Nat
  | [] => none
  | '+' :: rest => if rest = [] then none else parseDigits radix rest
  | s => parseDigits radix s

/-- The text before and after the first separator. -/
def cut (sep : Char) : Text → Option (Text × Text)
  | [] => none
  | ch :: rest =>
    if ch = sep then some ([], rest)
    else (cut sep rest).map fun p => (ch :: p.1, p.2)

def splitThree (sep : Char) (s : Text) : Option (Text × Text × Text) := do
  let (first, rest) ← cut sep s
  let (second, third) ← cut sep rest
  return (first, second, third)

/-- Lower case of the ASCII letters, the only ones a hash or an address can have. -/
def toLowercase (s : Text) : Text := s.map Char.toLower

lemma toLower_toLower (ch : Char) : ch.toLower.toLower = ch.toLower := by
  by_cases h : ch.val ≥ 'A'.val ∧ ch.val ≤ 'Z'.val
  · have hval : ch.toLower.val = ch.val + ('a'.val - 'A'.val) := by
      unfold Char.toLower
      rw [dif_pos h]
    have hout : ¬(ch.toLower.val ≥ 'A'.val ∧ ch.toLower.val ≤ 'Z'.val) := by
      rw [hval]
      simp only [ge_iff_le, UInt32.le_iff_toNat_le, UInt32.toNat_add] at h ⊢
      have ha : 'A'.val.toNat = 65 := rfl
      have hz : 'Z'.val.toNat = 90 := rfl
      have hd : ('a'.val - 'A'.val).toNat = 32 := rfl
      omega
    exact dif_neg hout
  · have hsame : ch.toLower = ch := dif_neg h
    rw [hsame, hsame]

@[simp] lemma toLowercase_toLowercase (s : Text) : toLowercase (toLowercase s) = toLowercase s := by
  simp [toLowercase, toLower_toLower]

def trimHexPrefix : Text → Text
  | '0' :: 'x' :: rest => trimHexPrefix rest
  | s => s

def hexDecode : Text → Option Bytes
  | [] => some []
  | [_] => none
  | hi :: lo :: rest => do
    let h ← toDigit 16 hi
    let l ← toDigit 16 lo
    let bytes ← hexDecode rest
    return (16 * h + l) :: bytes

def hexDigit (n : Nat) : Char := if n < 10 then Char.ofNat (48 + n) else Char.ofNat (87 + n)

def hexEncode (bytes : Bytes) : Text := bytes.flatMap fun b => [hexDigit (b / 16), hexDigit (b % 16)]

def fromBeBytes (bytes : Bytes) : Nat := bytes.foldl (fun acc b => 256 * acc + b) 0

def fromLeBytes (bytes : Bytes) : Nat := fromBeBytes bytes.reverse

/-- The order of the field the proofs are over. -/
def MODULUS : Nat := 0x73eda753299d7d483339d80809a1d80553bda402fffe5bfeffffffff00000001

/-- The canonical little-endian encoding only. -/
def frFromHex (s : Text) : Option Fr := do
  let bytes ← hexDecode s
  if bytes.length = 32 ∧ fromLeBytes bytes < MODULUS then some (fromLeBytes bytes) else none

def toLeBytes : Nat → Nat → Bytes
  | 0, _ => []
  | width + 1, n => n % 256 :: toLeBytes width (n / 256)

def frToHex (x : Fr) : Text := hexEncode (toLeBytes 32 x)

lemma toDigit_lt {ch : Char} {d : Nat} (h : toDigit 16 ch = some d) : d < 16 := by
  obtain ⟨-, hlt⟩ := Option.filter_eq_some_iff.mp h
  exact of_decide_eq_true hlt

lemma toDigit_hexDigit {n : Nat} (h : n < 16) : toDigit 16 (hexDigit n) = some n := by
  have hall : ∀ d : Fin 16, toDigit 16 (hexDigit d) = some d.val := by decide
  exact hall ⟨n, h⟩

lemma hexDecode_lt {s : Text} {bytes : Bytes} (h : hexDecode s = some bytes) : ∀ b ∈ bytes, b < 256 := by
  induction s using hexDecode.induct generalizing bytes with
  | case1 =>
    obtain rfl := Option.some.inj h
    exact fun b hb => absurd hb List.not_mem_nil
  | case2 _ => cases h
  | case3 hi lo rest ih =>
    simp only [hexDecode, bind, Option.bind_eq_some_iff, pure, Option.some.injEq] at h
    obtain ⟨d, hd, e, he, tail, htail, rfl⟩ := h
    intro b hb
    rcases List.mem_cons.mp hb with rfl | hrest
    · have hd' := toDigit_lt hd
      have he' := toDigit_lt he
      omega
    · exact ih htail b hrest

lemma hexDecode_hexEncode {bytes : Bytes} (h : ∀ b ∈ bytes, b < 256) :
    hexDecode (hexEncode bytes) = some bytes := by
  induction bytes with
  | nil => rfl
  | cons b bytes ih =>
    have hb : b < 256 := h b List.mem_cons_self
    have hrest := ih fun b' hb' => h b' (List.mem_cons_of_mem b hb')
    show hexDecode (hexDigit (b / 16) :: hexDigit (b % 16) :: hexEncode bytes) = _
    rw [hexDecode, toDigit_hexDigit (by omega), toDigit_hexDigit (by omega), hrest]
    have hsplit : 16 * (b / 16) + b % 16 = b := Nat.div_add_mod b 16
    simp [hsplit]

lemma fromLeBytes_cons (b : Nat) (bytes : Bytes) : fromLeBytes (b :: bytes) = 256 * fromLeBytes bytes + b := by
  simp [fromLeBytes, fromBeBytes]

lemma toLeBytes_fromLeBytes {bytes : Bytes} (h : ∀ b ∈ bytes, b < 256) :
    toLeBytes bytes.length (fromLeBytes bytes) = bytes := by
  induction bytes with
  | nil => rfl
  | cons b bytes ih =>
    have hb : b < 256 := h b List.mem_cons_self
    have hrest := ih fun b' hb' => h b' (List.mem_cons_of_mem b hb')
    have hmod : (256 * fromLeBytes bytes + b) % 256 = b := by omega
    have hdiv : (256 * fromLeBytes bytes + b) / 256 = fromLeBytes bytes := by omega
    rw [fromLeBytes_cons, List.length_cons, toLeBytes, hmod, hdiv, hrest]

lemma toLeBytes_length (width n : Nat) : (toLeBytes width n).length = width := by
  induction width generalizing n with
  | zero => rfl
  | succ width ih => rw [toLeBytes, List.length_cons, ih]

lemma fromLeBytes_toLeBytes {width n : Nat} (h : n < 256 ^ width) : fromLeBytes (toLeBytes width n) = n := by
  induction width generalizing n with
  | zero =>
    rw [pow_zero, Nat.lt_one_iff] at h
    rw [h]
    rfl
  | succ width ih =>
    rw [toLeBytes, fromLeBytes_cons, ih (by rw [pow_succ] at h; omega)]
    exact Nat.div_add_mod n 256

lemma toLeBytes_lt (width n : Nat) : ∀ b ∈ toLeBytes width n, b < 256 := by
  induction width generalizing n with
  | zero => exact fun b hb => absurd hb List.not_mem_nil
  | succ width ih =>
    intro b hb
    rcases List.mem_cons.mp hb with rfl | hrest
    · exact Nat.mod_lt n (by omega)
    · exact ih _ b hrest

/-- A field element accepted from its encoding is encoded the same way again. -/
theorem frToHex_frFromHex {bytes : Bytes} (h : ∀ b ∈ bytes, b < 256) {r : Fr}
    (hr : frFromHex (hexEncode bytes) = some r) : frToHex r = hexEncode bytes := by
  unfold frFromHex at hr
  rw [hexDecode_hexEncode h] at hr
  obtain ⟨⟨hlen, -⟩, heq⟩ := Option.ite_none_right_eq_some.mp hr
  obtain rfl := Option.some.inj heq
  unfold frToHex
  rw [← hlen, toLeBytes_fromLeBytes h]

/-- A log entry's identity on its chain. -/
structure EventId where
  chainId : Nat
  txHash : Text
  logIndex : Nat
  deriving DecidableEq, Repr

/-- The log entry a deposit id names, as the node reads it. -/
def eventOf (depositId : Text) : Option EventId := do
  let (chain, txHash, logIndex) ← splitThree ':' depositId
  let chainId ← parseU64 10 chain
  let index ← parseU64 10 logIndex
  return ⟨chainId, toLowercase txHash, index⟩

example : eventOf "1:0xab:2".toList = eventOf "01:0xAB:+2".toList := by decide

end Peal.Links
