import Peal.Library.Encoding
import Mathlib.Tactic

namespace Peal.Utf8
open Peal.Encoding

/-! # UTF-8 on byte lists -/

def encodeScalar (n : Nat) : List Nat :=
  if n < 0x80 then [n]
  else if n < 0x800 then [0xC0 + n / 0x40, 0x80 + n % 0x40]
  else if n < 0x10000 then [0xE0 + n / 0x1000, 0x80 + n / 0x40 % 0x40, 0x80 + n % 0x40]
  else [0xF0 + n / 0x40000, 0x80 + n / 0x1000 % 0x40, 0x80 + n / 0x40 % 0x40, 0x80 + n % 0x40]

def encodeChar (c : Char) : List Nat := encodeScalar c.toNat

def encode (s : List Char) : List Nat := s.flatMap encodeChar

def isTail (b : Nat) : Bool := 0x80 ≤ b && b < 0xC0

/-- A scalar value no shorter form has. -/
def scalar (least n : Nat) (rest : List Nat) : Option (Char × List Nat) :=
  if least ≤ n ∧ n.isValidChar then some (Char.ofNat n, rest) else none

/-- The first character and what follows it; overlong forms, surrogates and stray bytes are refused. -/
def decodeChar : List Nat → Option (Char × List Nat)
  | [] => none
  | a :: rest =>
    if a < 0x80 then scalar 0 a rest
    else if a < 0xC0 then none
    else if a < 0xE0 then
      match rest with
      | b :: rest => if isTail b then scalar 0x80 ((a - 0xC0) * 0x40 + (b - 0x80)) rest else none
      | _ => none
    else if a < 0xF0 then
      match rest with
      | b :: c :: rest =>
        if isTail b && isTail c then scalar 0x800 (((a - 0xE0) * 0x40 + (b - 0x80)) * 0x40 + (c - 0x80)) rest else none
      | _ => none
    else
      match rest with
      | b :: c :: d :: rest =>
        if isTail b && isTail c && isTail d then
          scalar 0x10000 ((((a - 0xF0) * 0x40 + (b - 0x80)) * 0x40 + (c - 0x80)) * 0x40 + (d - 0x80)) rest
        else none
      | _ => none

/-- The fuel bounds the number of characters. -/
def decodeSome : Nat → List Nat → Option (List Char)
  | _, [] => some []
  | 0, _ => none
  | fuel + 1, bytes => do
    let (c, rest) ← decodeChar bytes
    let s ← decodeSome fuel rest
    return c :: s

def decode (bytes : List Nat) : Option (List Char) := decodeSome bytes.length bytes

lemma char_cases (c : Char) : c.toNat < 0xD800 ∨ 0xDFFF < c.toNat ∧ c.toNat < 0x110000 := c.valid

lemma isTail_iff {b : Nat} : isTail b = true ↔ 0x80 ≤ b ∧ b < 0xC0 := by
  simp [isTail]

lemma toNat_ofNat {n : Nat} (h : n.isValidChar) : (Char.ofNat n).toNat = n := by
  rw [Char.ofNat, dif_pos h]
  rfl

lemma scalar_eq_some {least n : Nat} {rest rest' : List Nat} {c : Char} :
    scalar least n rest = some (c, rest') ↔ (least ≤ n ∧ n = c.toNat) ∧ rest = rest' := by
  unfold scalar
  split_ifs with h
  · have hn := toNat_ofNat h.2
    rw [Option.some.injEq, Prod.mk.injEq]
    constructor
    · rintro ⟨rfl, hrest⟩
      exact ⟨⟨h.1, hn.symm⟩, hrest⟩
    · rintro ⟨⟨-, heq⟩, hrest⟩
      exact ⟨by rw [heq, Char.ofNat_toNat], hrest⟩
  · constructor
    · intro heq
      cases heq
    · rintro ⟨⟨hleast, rfl⟩, -⟩
      exact absurd ⟨hleast, c.valid⟩ h

/-- Decoding a character undoes encoding it, and nothing else. -/
theorem decodeChar_eq_some {bytes rest : List Nat} {c : Char} :
    decodeChar bytes = some (c, rest) ↔ bytes = encodeChar c ++ rest := by
  have hc := char_cases c
  constructor
  · intro h
    unfold decodeChar at h
    split at h
    · cases h
    · rename_i a tail
      split_ifs at h with h1 h2 h3 h4
      · obtain ⟨⟨-, hn⟩, rfl⟩ := scalar_eq_some.mp h
        rw [encodeChar, encodeScalar, ← hn, if_pos h1]
        rfl
      · split at h
        · rename_i b tail
          split_ifs at h with hb
          have hb' := isTail_iff.mp hb
          obtain ⟨⟨hleast, hn⟩, rfl⟩ := scalar_eq_some.mp h
          rw [encodeChar, encodeScalar, if_neg (by omega), if_pos (by omega)]
          simp only [List.cons_append, List.nil_append, List.cons.injEq, and_true]
          omega
        · cases h
      · split at h
        · rename_i b d tail
          split_ifs at h with hb
          rw [Bool.and_eq_true, isTail_iff, isTail_iff] at hb
          obtain ⟨⟨hleast, hn⟩, rfl⟩ := scalar_eq_some.mp h
          rw [encodeChar, encodeScalar, if_neg (by omega), if_neg (by omega), if_pos (by omega)]
          simp only [List.cons_append, List.nil_append, List.cons.injEq, and_true]
          omega
        · cases h
      · split at h
        · rename_i b d e tail
          split_ifs at h with hb
          rw [Bool.and_eq_true, Bool.and_eq_true, isTail_iff, isTail_iff, isTail_iff] at hb
          obtain ⟨⟨hleast, hn⟩, rfl⟩ := scalar_eq_some.mp h
          rw [encodeChar, encodeScalar, if_neg (by omega), if_neg (by omega), if_neg (by omega)]
          simp only [List.cons_append, List.nil_append, List.cons.injEq, and_true]
          omega
        · cases h
  · rintro rfl
    unfold encodeChar encodeScalar
    split_ifs with h1 h2 h3
    · simp only [List.cons_append, List.nil_append, decodeChar, if_pos h1]
      exact scalar_eq_some.mpr ⟨⟨Nat.zero_le _, rfl⟩, rfl⟩
    · have ht : isTail (0x80 + c.toNat % 0x40) = true := isTail_iff.mpr (by omega)
      simp only [List.cons_append, List.nil_append, decodeChar]
      rw [if_neg (by omega), if_neg (by omega), if_pos (by omega), if_pos ht]
      exact scalar_eq_some.mpr ⟨by omega, rfl⟩
    · have ht : isTail (0x80 + c.toNat / 0x40 % 0x40) = true := isTail_iff.mpr (by omega)
      have hu : isTail (0x80 + c.toNat % 0x40) = true := isTail_iff.mpr (by omega)
      simp only [List.cons_append, List.nil_append, decodeChar]
      rw [if_neg (by omega), if_neg (by omega), if_neg (by omega), if_pos (by omega), if_pos (by rw [ht, hu]; rfl)]
      exact scalar_eq_some.mpr ⟨by omega, rfl⟩
    · have ht : isTail (0x80 + c.toNat / 0x1000 % 0x40) = true := isTail_iff.mpr (by omega)
      have hu : isTail (0x80 + c.toNat / 0x40 % 0x40) = true := isTail_iff.mpr (by omega)
      have hv : isTail (0x80 + c.toNat % 0x40) = true := isTail_iff.mpr (by omega)
      simp only [List.cons_append, List.nil_append, decodeChar]
      rw [if_neg (by omega), if_neg (by omega), if_neg (by omega), if_neg (by omega), if_pos (by rw [ht, hu, hv]; rfl)]
      exact scalar_eq_some.mpr ⟨by omega, rfl⟩

lemma encodeChar_ne_nil (c : Char) : encodeChar c ≠ [] := by
  unfold encodeChar encodeScalar
  split_ifs
  · exact List.cons_ne_nil _ _
  · exact List.cons_ne_nil _ _
  · exact List.cons_ne_nil _ _
  · exact List.cons_ne_nil _ _

lemma encodeChar_prefixFree : PrefixFree (fun _ => True) encodeChar := by
  intro c d _ _ u v h
  have hu : decodeChar (encodeChar c ++ u) = some (c, u) := decodeChar_eq_some.mpr rfl
  rw [h, decodeChar_eq_some.mpr rfl] at hu
  obtain ⟨rfl, rfl⟩ := Prod.mk.inj (Option.some.inj hu)
  exact ⟨rfl, rfl⟩

lemma encode_cons (c : Char) (s : List Char) : encode (c :: s) = encodeChar c ++ encode s := List.flatMap_cons

lemma encode_append (s t : List Char) : encode (s ++ t) = encode s ++ encode t := List.flatMap_append

lemma decodeSome_eq_some {fuel : Nat} {bytes : List Nat} (hfuel : bytes.length ≤ fuel) {s : List Char} :
    decodeSome fuel bytes = some s ↔ bytes = encode s := by
  induction fuel generalizing bytes s with
  | zero =>
    obtain rfl := List.length_eq_zero_iff.mp (Nat.le_zero.mp hfuel)
    rw [decodeSome, Option.some.injEq]
    cases s with
    | nil => exact iff_of_true rfl rfl
    | cons c s =>
      refine iff_of_false (List.cons_ne_nil c s).symm fun h => encodeChar_ne_nil c ?_
      exact (List.append_eq_nil_iff.mp h.symm).1
  | succ fuel ih =>
    cases bytes with
    | nil =>
      rw [decodeSome, Option.some.injEq]
      cases s with
      | nil => exact iff_of_true rfl rfl
      | cons c s =>
        refine iff_of_false (List.cons_ne_nil c s).symm fun h => encodeChar_ne_nil c ?_
        exact (List.append_eq_nil_iff.mp h.symm).1
    | cons a tail =>
      simp only [decodeSome, Option.bind_eq_bind, Option.bind_eq_some_iff, Option.pure_def, Option.some.injEq,
        Prod.exists]
      have hshort : ∀ {c : Char} {rest : List Nat}, a :: tail = encodeChar c ++ rest → rest.length ≤ fuel := by
        intro c rest h
        have hlen := congrArg List.length h
        have hpos := List.length_pos_iff.mpr (encodeChar_ne_nil c)
        rw [List.length_append] at hlen
        rw [hlen] at hfuel
        omega
      constructor
      · rintro ⟨c, rest, hchar, s', hs', rfl⟩
        have hbytes := decodeChar_eq_some.mp hchar
        rw [hbytes, encode_cons, (ih (hshort hbytes)).mp hs']
      · intro h
        cases s with
        | nil => exact absurd h (List.cons_ne_nil a tail)
        | cons c s =>
          rw [encode_cons] at h
          exact ⟨c, encode s, decodeChar_eq_some.mpr h, s, (ih (hshort h)).mpr rfl, rfl⟩

/-- Bytes that decode are the encoding of their text. -/
theorem decode_eq_some {bytes : List Nat} {s : List Char} : decode bytes = some s ↔ bytes = encode s :=
  decodeSome_eq_some le_rfl

lemma decode_encode (s : List Char) : decode (encode s) = some s := decode_eq_some.mpr rfl

theorem encode_injective : Function.Injective encode := by
  intro s t h
  have hs := decode_encode s
  rw [h, decode_encode] at hs
  exact (Option.some.inj hs).symm

lemma encode_split {s t : List Char} {rest : List Nat} (h : encode t = encode s ++ rest) :
    ∃ more, t = s ++ more ∧ rest = encode more := by
  induction s generalizing t with
  | nil => exact ⟨t, rfl, h.symm⟩
  | cons c s ih =>
    cases t with
    | nil =>
      rw [encode_cons, List.append_assoc] at h
      exact absurd (List.append_eq_nil_iff.mp h.symm).1 (encodeChar_ne_nil c)
    | cons d t =>
      rw [encode_cons, encode_cons, List.append_assoc] at h
      obtain ⟨rfl, hrest⟩ := encodeChar_prefixFree trivial trivial h
      obtain ⟨more, rfl, hmore⟩ := ih hrest
      exact ⟨more, rfl, hmore⟩

lemma decode_cons {b : Nat} (hb : b < 0x80) {bytes : List Nat} {s : List Char} (h : decode (b :: bytes) = some s) :
    ∃ rest, s = Char.ofNat b :: rest := by
  have hchar : (Char.ofNat b).toNat = b := toNat_ofNat (.inl (by omega))
  have hself : encodeChar (Char.ofNat b) = [b] := by
    rw [encodeChar, hchar, encodeScalar, if_pos hb]
  have hsplit := decode_eq_some.mp h
  cases s with
  | nil => cases hsplit
  | cons c s =>
    rw [encode_cons, ← List.singleton_append, ← hself] at hsplit
    obtain ⟨rfl, -⟩ := encodeChar_prefixFree trivial trivial hsplit
    exact ⟨s, rfl⟩

lemma encode_lt (s : List Char) : ∀ b ∈ encode s, b < 256 := by
  intro b hb
  obtain ⟨c, -, hc⟩ := List.mem_flatMap.mp hb
  have hvalid := char_cases c
  unfold encodeChar encodeScalar at hc
  split_ifs at hc with h1 h2 h3
  · simp only [List.mem_cons, List.not_mem_nil, or_false] at hc
    omega
  · simp only [List.mem_cons, List.not_mem_nil, or_false] at hc
    omega
  · simp only [List.mem_cons, List.not_mem_nil, or_false] at hc
    omega
  · simp only [List.mem_cons, List.not_mem_nil, or_false] at hc
    omega

/-! ### The byte order mark -/

def bom : Char := '\uFEFF'

/-- A text without the mark it may begin with. -/
def dropBom : List Char → List Char
  | c :: s => if c = bom then s else c :: s
  | [] => []

/-- What a decoder that takes the mark for a signature makes of bytes. -/
def decodeUnmarked : List Nat → Option (List Char)
  | 0xEF :: 0xBB :: 0xBF :: rest => decode rest
  | bytes => decode bytes

lemma dropBom_eq_self {s : List Char} : dropBom s = s ↔ s.head? ≠ some bom := by
  cases s with
  | nil => exact iff_of_true rfl (Option.some_ne_none _).symm
  | cons c s =>
    rw [dropBom, List.head?_cons, Ne, Option.some.injEq]
    split_ifs with hc
    · exact iff_of_false (fun h => List.cons_ne_self c s h.symm) (not_not_intro hc)
    · exact iff_of_true rfl hc

lemma encode_dropBom_le (s : List Char) : (encode (dropBom s)).length ≤ (encode s).length := by
  cases s with
  | nil => exact le_rfl
  | cons c s =>
    rw [dropBom]
    split_ifs
    · rw [encode_cons, List.length_append]
      exact Nat.le_add_left _ _
    · exact le_rfl

lemma encode_bom : encodeChar bom = [0xEF, 0xBB, 0xBF] := by decide

lemma decodeUnmarked_eq (bytes : List Nat) : decodeUnmarked bytes = (decode bytes).map dropBom := by
  unfold decodeUnmarked
  split
  · rename_i rest
    cases h : decode rest with
    | none =>
      cases hall : decode (0xEF :: 0xBB :: 0xBF :: rest) with
      | none => rfl
      | some s =>
        exfalso
        have hbytes := decode_eq_some.mp hall
        cases s with
        | nil => cases hbytes
        | cons c s =>
          have hfirst : encodeChar bom ++ rest = encodeChar c ++ encode s := by
            rw [encode_bom, ← encode_cons]
            exact hbytes
          obtain ⟨-, rfl⟩ := encodeChar_prefixFree trivial trivial hfirst
          rw [decode_encode] at h
          cases h
    | some s =>
      have hall : decode (0xEF :: 0xBB :: 0xBF :: rest) = some (bom :: s) := by
        rw [decode_eq_some, encode_cons, encode_bom, ← decode_eq_some.mp h]
        rfl
      rw [hall, Option.map_some, dropBom, if_pos rfl]
  · rename_i hmark
    cases h : decode bytes with
    | none => rfl
    | some s =>
      cases s with
      | nil => rfl
      | cons c s =>
        rw [Option.map_some, dropBom, if_neg]
        rintro rfl
        have hbytes := decode_eq_some.mp h
        rw [encode_cons, encode_bom] at hbytes
        exact hmark _ hbytes

end Peal.Utf8
