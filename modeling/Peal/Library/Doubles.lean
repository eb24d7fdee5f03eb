import Mathlib.Data.Int.Log
import Peal.Library.JsNumbers

namespace Peal.Doubles
open Peal.JsNumbers (roundNat)

/-! # Double precision numbers as rationals -/

/-- To the nearer integer; halfway, to the even one. -/
def roundEven (q : ℚ) : ℤ :=
  if q - ⌊q⌋ < 1 / 2 ∨ (q - ⌊q⌋ = 1 / 2 ∧ ⌊q⌋ % 2 = 0) then ⌊q⌋ else ⌊q⌋ + 1

/-- Of the last place; the least is the one of the subnormal numbers. -/
def exponent (q : ℚ) : ℤ := max (Int.log 2 |q| - 52) (-1074)

/-- The double nearest to a number, were the exponents unbounded above. -/
def nearest (q : ℚ) : ℚ := roundEven (q / 2 ^ exponent q) * 2 ^ exponent q

structure IsDouble (q : ℚ) : Prop where
  exact : nearest q = q
  small : |q| < 2 ^ 1024

/-- A number of the language; the two zeros are one. -/
inductive Double where
  | finite (q : ℚ) (isDouble : IsDouble q)
  | infinite (negative : Bool)
  | nan

/-! ### Rounding -/

lemma roundEven_intCast (n : ℤ) : roundEven n = n := by
  rw [roundEven, Int.floor_intCast, sub_self, if_pos (.inl (by norm_num))]

lemma roundEven_bounds (q : ℚ) : ⌊q⌋ ≤ roundEven q ∧ roundEven q ≤ ⌊q⌋ + 1 := by
  rw [roundEven]
  split_ifs
  · exact ⟨le_rfl, by omega⟩
  · exact ⟨by omega, le_rfl⟩

lemma abs_roundEven_le {q : ℚ} {n : ℤ} (h : |q| < n) : |roundEven q| ≤ n := by
  obtain ⟨hlow, hhigh⟩ := roundEven_bounds q
  obtain ⟨hneg, hpos⟩ := abs_lt.mp h
  have hfloor : -n ≤ ⌊q⌋ := Int.le_floor.mpr (by push_cast; exact hneg.le)
  have hceil : ⌊q⌋ < n := Int.floor_lt.mpr hpos
  exact abs_le.mpr ⟨by omega, by omega⟩

lemma two_zpow_pos (e : ℤ) : (0 : ℚ) < 2 ^ e := zpow_pos (by norm_num) e

lemma log_lt {q : ℚ} {e : ℤ} (hq : q ≠ 0) : Int.log 2 |q| < e ↔ |q| < 2 ^ e :=
  (Int.lt_zpow_iff_log_lt (by norm_num) (abs_pos.mpr hq)).symm

lemma scaled_lt (q : ℚ) : |q / 2 ^ exponent q| < (2 ^ 53 : ℤ) := by
  have hpos := two_zpow_pos (exponent q)
  have hlog : |q| < 2 ^ (Int.log 2 |q| + 1) := Int.lt_zpow_succ_log_self (by norm_num) |q|
  have hexp : Int.log 2 |q| + 1 ≤ 53 + exponent q := by
    have := le_max_left (Int.log 2 |q| - 52) (-1074)
    unfold exponent
    omega
  have hle : |q| < 2 ^ (53 + exponent q) := hlog.trans_le (zpow_le_zpow_right₀ (by norm_num) hexp)
  rw [abs_div, abs_of_pos hpos, div_lt_iff₀ hpos]
  rwa [zpow_add₀ (by norm_num)] at hle

lemma nearest_of_exponent_le {s e : ℤ} (h : exponent (s * 2 ^ e) ≤ e) : nearest (s * 2 ^ e) = s * 2 ^ e := by
  have hunit : (s * 2 ^ e : ℚ) / 2 ^ exponent (s * 2 ^ e) = (s * 2 ^ (e - exponent (s * 2 ^ e)).toNat : ℤ) := by
    have hpow : (2 : ℚ) ^ e = 2 ^ (e - exponent (s * 2 ^ e)).toNat * 2 ^ exponent (s * 2 ^ e) := by
      rw [← zpow_natCast, Int.toNat_of_nonneg (by omega), ← zpow_add₀ (by norm_num), sub_add_cancel]
    push_cast
    rw [div_eq_iff (two_zpow_pos _).ne', mul_assoc, ← hpow]
  rw [nearest, hunit, roundEven_intCast, ← hunit, div_mul_cancel₀ _ (two_zpow_pos _).ne']

lemma nearest_of_bits {s e : ℤ} (hs : |s| ≤ 2 ^ 53) (he : -1074 ≤ e) : nearest (s * 2 ^ e) = s * 2 ^ e := by
  have hpos := two_zpow_pos e
  by_cases hzero : s = 0
  · subst hzero
    rw [Int.cast_zero, zero_mul, nearest, zero_div]
    have hround : roundEven 0 = 0 := by exact_mod_cast roundEven_intCast 0
    rw [hround, Int.cast_zero, zero_mul]
  · have hne : (s * 2 ^ e : ℚ) ≠ 0 := mul_ne_zero (Int.cast_ne_zero.mpr hzero) hpos.ne'
    have hexp : ∀ {d : ℤ}, |(s * 2 ^ e : ℚ)| < 2 ^ (53 + d) → -1074 ≤ d → exponent (s * 2 ^ e) ≤ d := by
      intro d hlt hd
      have hlog := (log_lt hne).mpr hlt
      exact max_le (by omega) hd
    rcases hs.lt_or_eq with hlt | hfull
    · refine nearest_of_exponent_le (hexp ?_ he)
      rw [abs_mul, abs_of_pos hpos, zpow_add₀ (by norm_num)]
      refine mul_lt_mul_of_pos_right ?_ hpos
      rw [← Int.cast_abs]
      exact_mod_cast hlt
    · -- the next binade: half of the bits, of twice the unit
      obtain ⟨t, rfl⟩ : ∃ t : ℤ, s = t * 2 := by
        rcases abs_choice s with h | h
        · exact ⟨2 ^ 52, by omega⟩
        · exact ⟨-2 ^ 52, by omega⟩
      have hdouble : ((t * 2 : ℤ) : ℚ) * 2 ^ e = t * 2 ^ (e + 1) := by
        rw [zpow_add₀ (by norm_num), zpow_one]
        push_cast
        ring
      rw [hdouble] at hne hexp ⊢
      refine nearest_of_exponent_le (hexp ?_ (by omega))
      have ht : |t| < 2 ^ 53 := by
        rw [abs_mul, show |(2 : ℤ)| = 2 from rfl] at hfull
        omega
      rw [abs_mul, abs_of_pos (two_zpow_pos (e + 1)), zpow_add₀ (by norm_num) 53 (e + 1)]
      refine mul_lt_mul_of_pos_right ?_ (two_zpow_pos (e + 1))
      rw [← Int.cast_abs]
      exact_mod_cast ht

/-- Rounding gives a double, which rounds to itself. -/
theorem nearest_nearest (q : ℚ) : nearest (nearest q) = nearest q :=
  nearest_of_bits (abs_roundEven_le (scaled_lt q)) (le_max_right _ _)

namespace Double

def ofRat (q : ℚ) : Double :=
  if h : |nearest q| < 2 ^ 1024 then .finite (nearest q) ⟨nearest_nearest q, h⟩ else .infinite (q < 0)

/-- `Number.isInteger`. -/
def isInteger : Double → Bool
  | .finite q _ => q.isInt
  | _ => false

/-- The value of a whole number. -/
def whole : Double → ℤ
  | .finite q _ => q.num
  | _ => 0

lemma ofRat_of_nearest {q r : ℚ} (hq : IsDouble q) (h : nearest r = q) : ofRat r = .finite q hq := by
  subst h
  exact dif_pos hq.small

lemma finite_whole {x : Double} (h : x.isInteger = true) : ∃ hq : IsDouble x.whole, x = .finite x.whole hq := by
  cases x with
  | finite q hq =>
    have hcast : (q.num : ℚ) = q := by
      rw [isInteger, Rat.isInt, beq_iff_eq] at h
      exact Rat.coe_int_num_of_den_eq_one h
    rw [whole, hcast]
    exact ⟨hq, rfl⟩
  | infinite negative => cases h
  | nan => cases h

lemma ofRat_whole {x : Double} (h : x.isInteger = true) : ofRat x.whole = x := by
  obtain ⟨hq, hx⟩ := finite_whole h
  exact (ofRat_of_nearest hq hq.exact).trans hx.symm

end Double

/-! ### Whole numbers -/

lemma exponent_natCast {m : Nat} (h : 52 ≤ Nat.log2 m) : exponent m = (Nat.log2 m - 52 : Nat) := by
  rw [exponent, Nat.abs_cast, Int.log_natCast, ← Nat.log2_eq_log_two]
  omega

lemma roundEven_div {m u : Nat} (hu : 0 < u) : (roundEven (m / u) : ℚ) * u =
    ((if 2 * (m % u) < u ∨ (2 * (m % u) = u ∧ m / u % 2 = 0) then m / u * u else (m / u + 1) * u : Nat) : ℚ) := by
  have hpos : (0 : ℚ) < u := Nat.cast_pos.mpr hu
  have hrest : (m : ℚ) / u - ((m / u : Nat) : ℤ) = ((m % u : Nat) : ℚ) / u := by
    rw [eq_div_iff hpos.ne', sub_mul, div_mul_cancel₀ _ hpos.ne', Int.cast_natCast, sub_eq_iff_eq_add]
    exact_mod_cast (Nat.mod_add_div' m u).symm
  have hless : ((m % u : Nat) : ℚ) / u < 1 / 2 ↔ 2 * (m % u) < u := by
    rw [div_lt_div_iff₀ hpos (by norm_num), one_mul, mul_comm]
    exact_mod_cast Iff.rfl
  have hhalf : ((m % u : Nat) : ℚ) / u = 1 / 2 ↔ 2 * (m % u) = u := by
    rw [div_eq_div_iff hpos.ne' (by norm_num), one_mul, mul_comm]
    exact_mod_cast Iff.rfl
  have hparity : ((m / u : Nat) : ℤ) % 2 = 0 ↔ m / u % 2 = 0 := by omega
  rw [roundEven, Rat.floor_natCast_div_natCast, ← Int.natCast_div, hrest]
  simp only [hless, hhalf, hparity]
  split_ifs
  · push_cast
    rfl
  · push_cast
    rfl

/-- The two roundings of a whole number agree. -/
theorem nearest_natCast (m : Nat) : nearest m = roundNat m := by
  by_cases hlog : 52 ≤ Nat.log2 m
  · have hunit : (2 : ℚ) ^ (Nat.log2 m - 52) = ((2 ^ (Nat.log2 m - 52) : Nat) : ℚ) := by
      rw [Nat.cast_pow]
      rfl
    rw [nearest, exponent_natCast hlog, zpow_natCast, hunit, roundEven_div (by positivity)]
    rfl
  · have hlt : m < 2 ^ 53 := by
      by_cases hm : m = 0
      · subst hm
        decide
      · exact (Nat.log2_lt hm).mp (by omega)
    have hbits : nearest (((m : ℤ) : ℚ) * 2 ^ (0 : ℤ)) = ((m : ℤ) : ℚ) * 2 ^ (0 : ℤ) :=
      nearest_of_bits (by rw [Nat.abs_cast]; exact_mod_cast hlt.le) (by norm_num)
    rw [zpow_zero, mul_one, Int.cast_natCast] at hbits
    rw [hbits, JsNumbers.roundNat_of_lt hlt]

lemma isDouble_intCast {n : Int} (h : n.natAbs < 2 ^ 53) : IsDouble n where
  exact := by
    have habs : |n| ≤ 2 ^ 53 := by
      rw [Int.abs_eq_natAbs]
      exact_mod_cast h.le
    have hbits := nearest_of_bits habs (show -1074 ≤ (0 : ℤ) by norm_num)
    rwa [zpow_zero, mul_one] at hbits
  small := by
    have hlarge : |(n : ℚ)| < 2 ^ 53 := by
      rw [← Int.cast_abs, Int.abs_eq_natAbs]
      exact_mod_cast h
    exact hlarge.trans (pow_lt_pow_right₀ (by norm_num) (by norm_num))

lemma isDouble_natCast {m : Nat} (h : m < 2 ^ 53) : IsDouble m := by
  have hint : IsDouble ((m : Int) : ℚ) := isDouble_intCast h
  rwa [Int.cast_natCast] at hint

end Peal.Doubles
