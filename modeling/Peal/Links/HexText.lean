import Mathlib.Tactic
import Peal.Links.DepositId
import Peal.Library.Eip712

namespace Peal.Links

/-! # Hexadecimal text -/

lemma toDigit_toLower (ch : Char) : toDigit 16 ch.toLower = toDigit 16 ch := by
  by_cases h : ch.val ≥ 'A'.val ∧ ch.val ≤ 'Z'.val
  · have hall : ∀ k : Fin 26, toDigit 16 (Char.ofNat (65 + k)).toLower = toDigit 16 (Char.ofNat (65 + k)) := by
      decide
    obtain ⟨hlow, hhigh⟩ := h
    rw [ge_iff_le, UInt32.le_iff_toNat_le] at hlow
    rw [UInt32.le_iff_toNat_le] at hhigh
    have ha : 65 ≤ ch.toNat := hlow
    have hz : ch.toNat ≤ 90 := hhigh
    have hch : Char.ofNat (65 + (ch.toNat - 65)) = ch := by
      rw [Nat.add_sub_cancel' ha]
      exact Char.ofNat_toNat ch
    have hk := hall ⟨ch.toNat - 65, by omega⟩
    rwa [hch] at hk
  · have hsame : ch.toLower = ch := dif_neg h
    rw [hsame]

lemma hexDecode_toLowercase (s : Text) : hexDecode (toLowercase s) = hexDecode s := by
  induction s using hexDecode.induct with
  | case1 => rfl
  | case2 => rfl
  | case3 hi lo rest ih =>
    show hexDecode (hi.toLower :: lo.toLower :: toLowercase rest) = _
    rw [hexDecode, hexDecode, toDigit_toLower, toDigit_toLower, ih]

lemma trimHexPrefix_hex {s : Text} (h : s.all (fun ch => (toDigit 16 ch).isSome) = true) : trimHexPrefix s = s := by
  unfold trimHexPrefix
  split
  · simp only [List.all_cons, Bool.and_eq_true] at h
    exact absurd h.2.1 (by decide)
  · rfl

lemma toDigit_ascii {ch : Char} (h : (toDigit 16 ch).isSome = true) : ch.toNat < 128 := by
  by_contra hlarge
  have habove : ∀ c : Char, c.toNat < 128 → ¬ch ≤ c := by
    intro c hc hle
    have hnat : ch.toNat ≤ c.toNat := UInt32.le_iff_toNat_le.mp hle
    omega
  have hnone : toDigit 16 ch = none := by
    simp [toDigit, habove '9' (by decide), habove 'z' (by decide), habove 'Z' (by decide)]
  rw [hnone] at h
  cases h

lemma toLower_of_toDigit {ch : Char} {d : Nat} (h : toDigit 16 ch = some d) : ch.toLower = hexDigit d := by
  have hascii : ch.toNat < 128 := toDigit_ascii (by rw [h]; rfl)
  have hall : ∀ n : Fin 128, ∀ d ∈ toDigit 16 (Char.ofNat n), (Char.ofNat n).toLower = hexDigit d := by decide
  have hch := hall ⟨ch.toNat, hascii⟩ d
  rw [Char.ofNat_toNat] at hch
  exact hch h

lemma toLowercase_of_hexDecode {s : Text} {bytes : Bytes} (h : hexDecode s = some bytes) :
    toLowercase s = hexEncode bytes := by
  induction s using hexDecode.induct generalizing bytes with
  | case1 =>
    obtain rfl := Option.some.inj h
    rfl
  | case2 _ => cases h
  | case3 hi lo rest ih =>
    simp only [hexDecode, bind, Option.bind_eq_some_iff, pure, Option.some.injEq] at h
    obtain ⟨d, hd, e, he, tail, htail, rfl⟩ := h
    have hd16 := toDigit_lt hd
    have he16 := toDigit_lt he
    have hrest : toLowercase rest = hexEncode tail := ih htail
    show hi.toLower :: lo.toLower :: toLowercase rest =
      hexDigit ((16 * d + e) / 16) :: hexDigit ((16 * d + e) % 16) :: hexEncode tail
    rw [toLower_of_toDigit hd, toLower_of_toDigit he, hrest, show (16 * d + e) / 16 = d by omega,
      show (16 * d + e) % 16 = e by omega]

lemma hexDecode_of_even {s : Text} (hdigits : s.all (fun ch => (toDigit 16 ch).isSome) = true)
    (heven : s.length % 2 = 0) : ∃ bytes, hexDecode s = some bytes := by
  induction s using hexDecode.induct with
  | case1 => exact ⟨[], rfl⟩
  | case2 _ => simp at heven
  | case3 hi lo rest ih =>
    simp only [List.all_cons, Bool.and_eq_true, Option.isSome_iff_exists] at hdigits
    obtain ⟨⟨d, hd⟩, ⟨e, he⟩, hrest⟩ := hdigits
    obtain ⟨tail, htail⟩ := ih hrest (by simp only [List.length_cons] at heven; omega)
    exact ⟨(16 * d + e) :: tail, by simp [hexDecode, hd, he, htail]⟩

end Peal.Links

namespace Peal.Links
open Peal.Sha256 (toBytes)
open Peal.Eip712 (word)

/-! # Numbers as words of 32 bytes -/

lemma toBytes_append (j k n : Nat) : toBytes (j + k) n = toBytes j (n / 256 ^ k) ++ toBytes k n := by
  induction j with
  | zero => simp [toBytes]
  | succ j ih =>
    rw [Nat.succ_add, toBytes, ih, toBytes, List.cons_append, Nat.div_div_eq_div_mul, ← Nat.pow_add, Nat.add_comm k j]

lemma toBytes_zero (j : Nat) : toBytes j 0 = List.replicate j 0 := by
  induction j with
  | zero => rfl
  | succ j ih => rw [toBytes, ih, Nat.zero_div, List.replicate_succ]

lemma toBytes_eq_reverse (k n : Nat) : toBytes k n = (toLeBytes k n).reverse := by
  induction k generalizing n with
  | zero => rfl
  | succ k ih =>
    have hlast : toBytes 1 n = [n % 256] := by simp [toBytes]
    rw [toBytes_append k 1, pow_one, hlast, ih, toLeBytes, List.reverse_cons]

lemma word_padded {j k n : Nat} (hwidth : j + k = 32) (h : n < 256 ^ k) :
    List.replicate j 0 ++ (toLeBytes k n).reverse = word n := by
  rw [word, ← hwidth, toBytes_append, Nat.div_eq_of_lt h, toBytes_zero, toBytes_eq_reverse]

lemma word_injective {m n : Nat} (hm : m < 256 ^ 32) (hn : n < 256 ^ 32) (h : word m = word n) : m = n := by
  rw [word, word, toBytes_eq_reverse, toBytes_eq_reverse] at h
  have hread := congrArg fromLeBytes (List.reverse_injective h)
  rwa [fromLeBytes_toLeBytes hm, fromLeBytes_toLeBytes hn] at hread

lemma word_fromBeBytes {bytes : Bytes} (hlength : bytes.length = 32) (h : ∀ b ∈ bytes, b < 256) :
    word (fromBeBytes bytes) = bytes := by
  have hrev : ∀ b ∈ bytes.reverse, b < 256 := fun b hb => h b (List.mem_reverse.mp hb)
  have hle := toLeBytes_fromLeBytes hrev
  rw [List.length_reverse, hlength, fromLeBytes, List.reverse_reverse] at hle
  rw [word, toBytes_eq_reverse, hle, List.reverse_reverse]

lemma fromBeBytes_padded (j : Nat) (bytes : Bytes) : fromBeBytes (List.replicate j 0 ++ bytes) = fromBeBytes bytes := by
  unfold fromBeBytes
  rw [List.foldl_append]
  congr 1
  induction j with
  | zero => rfl
  | succ j ih => rw [List.replicate_succ, List.foldl_cons, Nat.mul_zero, Nat.zero_add, ih]

end Peal.Links
