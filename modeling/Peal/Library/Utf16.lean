import Mathlib.Tactic

namespace Peal.Utf16

/-! # Text as UTF-16 units -/

def isHigh (u : UInt16) : Bool := 0xD800 ≤ u.toNat && u.toNat < 0xDC00

def isLow (u : UInt16) : Bool := 0xDC00 ≤ u.toNat && u.toNat < 0xE000

def encodeChar (c : Char) : List UInt16 :=
  if c.toNat < 0x10000 then [UInt16.ofNat c.toNat]
  else [UInt16.ofNat (0xD800 + (c.toNat - 0x10000) / 0x400), UInt16.ofNat (0xDC00 + (c.toNat - 0x10000) % 0x400)]

def encode (s : List Char) : List UInt16 := s.flatMap encodeChar

def replacement : Char := '\uFFFD'

/-- The character of a unit that is no half of a pair. -/
def single (u : UInt16) : Char := if isHigh u || isLow u then replacement else Char.ofNat u.toNat

def pair (u v : UInt16) : Char := Char.ofNat (0x10000 + (u.toNat - 0xD800) * 0x400 + (v.toNat - 0xDC00))

/-- Scalar values; each half that is alone is replaced. -/
def decode : List UInt16 → List Char
  | [] => []
  | [u] => [single u]
  | u :: v :: rest =>
    if isHigh u && isLow v then pair u v :: decode rest else single u :: decode (v :: rest)

/-- A half of a pair stands without the other, after the unit `before`. -/
def loneAfter : Option UInt16 → List UInt16 → Bool
  | _, [] => false
  | before, u :: rest =>
    (isHigh u && !rest.head?.any isLow) || (isLow u && !before.any isHigh) || loneAfter (some u) rest

/-- `LONE_SURROGATE`. -/
def loneSurrogate (units : List UInt16) : Bool := loneAfter none units

lemma encode_cons (c : Char) (s : List Char) : encode (c :: s) = encodeChar c ++ encode s := List.flatMap_cons

lemma encode_append (s t : List Char) : encode (s ++ t) = encode s ++ encode t := List.flatMap_append

lemma toNat_ofNat {n : Nat} (h : n < 0x10000) : (UInt16.ofNat n).toNat = n := UInt16.toNat_ofNat_of_lt h

lemma ofNat_char (c : Char) : Char.ofNat c.toNat = c := Char.ofNat_toNat c

lemma char_cases (c : Char) : c.toNat < 0xD800 ∨ 0xDFFF < c.toNat ∧ c.toNat < 0x110000 := c.valid

lemma encodeChar_small {c : Char} (h : c.toNat < 0x10000) : encodeChar c = [UInt16.ofNat c.toNat] ∧
    isHigh (UInt16.ofNat c.toNat) = false ∧ isLow (UInt16.ofNat c.toNat) = false := by
  have hc := char_cases c
  refine ⟨if_pos h, ?_, ?_⟩
  · rw [isHigh, toNat_ofNat h, Bool.and_eq_false_iff, decide_eq_false_iff_not, decide_eq_false_iff_not]
    omega
  · rw [isLow, toNat_ofNat h, Bool.and_eq_false_iff, decide_eq_false_iff_not, decide_eq_false_iff_not]
    omega

lemma encodeChar_large {c : Char} (h : ¬c.toNat < 0x10000) : ∃ u v, encodeChar c = [u, v] ∧ isHigh u = true ∧
    isLow v = true ∧ pair u v = c := by
  have hc := char_cases c
  refine ⟨_, _, if_neg h, ?_, ?_, ?_⟩
  · rw [isHigh, toNat_ofNat (by omega), Bool.and_eq_true, decide_eq_true_eq, decide_eq_true_eq]
    omega
  · rw [isLow, toNat_ofNat (by omega), Bool.and_eq_true, decide_eq_true_eq, decide_eq_true_eq]
    omega
  · have hvalue : 0x10000 + (0xD800 + (c.toNat - 0x10000) / 0x400 - 0xD800) * 0x400 +
        (0xDC00 + (c.toNat - 0x10000) % 0x400 - 0xDC00) = c.toNat := by omega
    rw [pair, toNat_ofNat (by omega), toNat_ofNat (by omega), hvalue, ofNat_char]

lemma isHigh_iff {u : UInt16} : isHigh u = true ↔ 0xD800 ≤ u.toNat ∧ u.toNat < 0xDC00 := by
  rw [isHigh, Bool.and_eq_true, decide_eq_true_eq, decide_eq_true_eq]

lemma isLow_iff {u : UInt16} : isLow u = true ↔ 0xDC00 ≤ u.toNat ∧ u.toNat < 0xE000 := by
  rw [isLow, Bool.and_eq_true, decide_eq_true_eq, decide_eq_true_eq]

lemma low_not_high {u : UInt16} (h : isLow u = true) : isHigh u = false := by
  rw [Bool.eq_false_iff, Ne, isHigh_iff]
  have := isLow_iff.mp h
  omega

lemma high_not_low {u : UInt16} (h : isHigh u = true) : isLow u = false := by
  rw [Bool.eq_false_iff, Ne, isLow_iff]
  have := isHigh_iff.mp h
  omega

/-- Text reads back as written. -/
theorem decode_encode (s : List Char) : decode (encode s) = s := by
  induction s with
  | nil => rfl
  | cons c s ih =>
    rw [encode_cons]
    by_cases hc : c.toNat < 0x10000
    · obtain ⟨hunits, hhigh, hlow⟩ := encodeChar_small hc
      have hsingle : single (UInt16.ofNat c.toNat) = c := by
        rw [single, hhigh, hlow, if_neg (by decide), toNat_ofNat hc, ofNat_char]
      rw [hunits]
      cases henc : encode s with
      | nil =>
        rw [henc] at ih
        rw [List.append_nil, decode, hsingle, ← ih]
        rfl
      | cons v rest =>
        rw [henc] at ih
        rw [List.singleton_append, decode, hhigh, Bool.false_and, if_neg (by decide), hsingle, ih]
    · obtain ⟨u, v, hunits, hhigh, hlow, hpair⟩ := encodeChar_large hc
      rw [hunits, List.cons_append, List.singleton_append, decode, hhigh, hlow, Bool.true_and, if_pos rfl, hpair, ih]

theorem encode_injective : Function.Injective encode := Function.LeftInverse.injective decode_encode

lemma loneAfter_encode {before : Option UInt16} (s : List Char) : loneAfter before (encode s) = false := by
  induction s generalizing before with
  | nil => rfl
  | cons c s ih =>
    rw [encode_cons]
    by_cases hc : c.toNat < 0x10000
    · obtain ⟨hunits, hhigh, hlow⟩ := encodeChar_small hc
      rw [hunits, List.singleton_append, loneAfter, hhigh, hlow, ih]
      rfl
    · obtain ⟨u, v, hunits, hhigh, hlow, -⟩ := encodeChar_large hc
      rw [hunits, List.cons_append, List.singleton_append, loneAfter, loneAfter, hhigh, high_not_low hhigh, hlow,
        low_not_high hlow, ih]
      simp [hlow, hhigh]

/-- Text has no half of a pair alone. -/
theorem loneSurrogate_encode (s : List Char) : loneSurrogate (encode s) = false := loneAfter_encode s

lemma toNat_single {u : UInt16} (hhigh : isHigh u = false) (hlow : isLow u = false) : (single u).toNat = u.toNat := by
  have hlt : u.toNat < 0x10000 := u.toNat_lt
  have hvalid : u.toNat.isValidChar := by
    have hh := isHigh_iff.not.mp (Bool.eq_false_iff.mp hhigh)
    have hl := isLow_iff.not.mp (Bool.eq_false_iff.mp hlow)
    rw [Nat.isValidChar]
    omega
  rw [single, hhigh, hlow, if_neg (by decide), Char.ofNat, dif_pos hvalid]
  rfl

lemma encodeChar_single {u : UInt16} (hhigh : isHigh u = false) (hlow : isLow u = false) :
    encodeChar (single u) = [u] := by
  rw [encodeChar, toNat_single hhigh hlow, if_pos u.toNat_lt, UInt16.ofNat_toNat]

lemma toNat_pair {u v : UInt16} (hhigh : isHigh u = true) (hlow : isLow v = true) :
    (pair u v).toNat = 0x10000 + (u.toNat - 0xD800) * 0x400 + (v.toNat - 0xDC00) := by
  have hu := isHigh_iff.mp hhigh
  have hv := isLow_iff.mp hlow
  have hvalid : (0x10000 + (u.toNat - 0xD800) * 0x400 + (v.toNat - 0xDC00)).isValidChar := by
    rw [Nat.isValidChar]
    omega
  rw [pair, Char.ofNat, dif_pos hvalid]
  rfl

lemma encodeChar_pair {u v : UInt16} (hhigh : isHigh u = true) (hlow : isLow v = true) :
    encodeChar (pair u v) = [u, v] := by
  have hu := isHigh_iff.mp hhigh
  have hv := isLow_iff.mp hlow
  have hchar := toNat_pair hhigh hlow
  have hfirst : 0xD800 + (0x10000 + (u.toNat - 0xD800) * 0x400 + (v.toNat - 0xDC00) - 0x10000) / 0x400 = u.toNat := by
    omega
  have hsecond : 0xDC00 + (0x10000 + (u.toNat - 0xD800) * 0x400 + (v.toNat - 0xDC00) - 0x10000) % 0x400 = v.toNat := by
    omega
  rw [encodeChar, hchar, if_neg (by omega), hfirst, hsecond, UInt16.ofNat_toNat, UInt16.ofNat_toNat]

/-- Units without a lone half are some text's. -/
theorem encode_decode {units : List UInt16} {before : Option UInt16} (h : loneAfter before units = false)
    (hbefore : before.any isHigh = false) : encode (decode units) = units := by
  induction units using decode.induct generalizing before with
  | case1 => rfl
  | case2 u =>
    simp only [loneAfter, Bool.or_eq_false_iff, List.head?_nil, Option.any_none, Bool.not_false, Bool.and_true,
      hbefore, and_true] at h
    rw [decode, encode_cons, encodeChar_single h.1 h.2]
    rfl
  | case3 u v rest hpair ih =>
    rw [Bool.and_eq_true] at hpair
    simp only [loneAfter, Bool.or_eq_false_iff] at h
    rw [decode, if_pos (by rw [hpair.1, hpair.2]; rfl), encode_cons, encodeChar_pair hpair.1 hpair.2,
      ih h.2.2 (low_not_high hpair.2)]
    rfl
  | case4 u v rest hpair ih =>
    simp only [loneAfter, Bool.or_eq_false_iff, hbefore, Bool.not_false, Bool.and_true, List.head?_cons,
      Option.any_some] at h
    obtain ⟨⟨hhigh, hlow⟩, hrest⟩ := h
    have hnot : isHigh u = false := by
      cases hu : isHigh u with
      | false => rfl
      | true =>
        rw [hu, Bool.true_and, Bool.not_eq_eq_eq_not, Bool.not_false] at hhigh
        exact absurd (by rw [hu, hhigh]; rfl) hpair
    have hafter : loneAfter (some u) (v :: rest) = false := by
      rw [loneAfter]
      simpa [hnot] using hrest
    rw [decode, if_neg hpair, encode_cons, encodeChar_single hnot hlow, ih hafter hnot]
    rfl

/-- The units a text has are those without a lone half. -/
theorem loneSurrogate_iff {units : List UInt16} : loneSurrogate units = false ↔ ∃ s, encode s = units :=
  ⟨fun h => ⟨decode units, encode_decode h rfl⟩, fun ⟨s, hs⟩ => hs ▸ loneSurrogate_encode s⟩

end Peal.Utf16
