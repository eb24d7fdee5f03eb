import Mathlib.Tactic

namespace Peal.JsNumbers

/-! # Whole numbers as a script engine reads and prints them

A numeral is read as the nearest double, and a double is printed with the fewest digits that read back as it. -/

/-- To fifty-three bits; halfway, to the even one. -/
def roundNat (m : Nat) : Nat :=
  let e := Nat.log2 m - 52
  let q := m / 2 ^ e
  let r := m % 2 ^ e
  if 2 * r < 2 ^ e ∨ (2 * r = 2 ^ e ∧ q % 2 = 0) then q * 2 ^ e else (q + 1) * 2 ^ e

def toDouble : Int → Int
  | .ofNat m => roundNat m
  | .negSucc m => -roundNat (m + 1)

/-- The nearer multiple of `10 ^ j` that reads back as the double, if one does. -/
def candidate (m j : Nat) : Option Nat :=
  let low := m / 10 ^ j * 10 ^ j
  let high := low + 10 ^ j
  let nearer := m - low < high - m ∨ (m - low = high - m ∧ m / 10 ^ j % 2 = 0)
  if roundNat low = m ∧ (roundNat high ≠ m ∨ nearer) then some low
  else if roundNat high = m then some high
  else none

def shortest (m : Nat) : Nat := ((List.range 22).reverse.findSome? (candidate m)).getD m

/-- The whole number whose digits a double below `10 ^ 21` is printed with. -/
def printed : Int → Int
  | .ofNat m => shortest m
  | .negSucc m => -shortest (m + 1)

/-! ### Below fifty-three bits nothing is lost -/

lemma roundNat_of_lt {m : Nat} (h : m < 2 ^ 53) : roundNat m = m := by
  have he : Nat.log2 m - 52 = 0 := by
    by_cases hm : m = 0
    · subst hm
      rfl
    · have := (Nat.log2_lt hm).mpr h
      omega
  unfold roundNat
  simp [he, Nat.mod_one]

lemma le_roundNat {m : Nat} (h : 2 ^ 53 ≤ m) : 2 ^ 53 ≤ roundNat m := by
  have hm : m ≠ 0 := by
    rintro rfl
    exact absurd h (by decide)
  have hlog : 53 ≤ Nat.log2 m := (Nat.le_log2 hm).mpr h
  have hpow : 2 ^ 52 * 2 ^ (Nat.log2 m - 52) ≤ m := by
    rw [← pow_add, Nat.add_sub_cancel' (by omega)]
    exact Nat.log2_self_le hm
  have hq : 2 ^ 52 ≤ m / 2 ^ (Nat.log2 m - 52) := (Nat.le_div_iff_mul_le (by positivity)).mpr hpow
  have htwo : 2 ^ 1 ≤ 2 ^ (Nat.log2 m - 52) := Nat.pow_le_pow_right (by decide) (by omega)
  have hbase : 2 ^ 53 ≤ m / 2 ^ (Nat.log2 m - 52) * 2 ^ (Nat.log2 m - 52) :=
    calc 2 ^ 53 = 2 ^ 52 * 2 ^ 1 := by norm_num
      _ ≤ m / 2 ^ (Nat.log2 m - 52) * 2 ^ (Nat.log2 m - 52) := Nat.mul_le_mul hq htwo
  unfold roundNat
  dsimp only
  split_ifs
  · exact hbase
  · exact hbase.trans (Nat.mul_le_mul_right _ (Nat.le_succ _))

lemma eq_of_roundNat {m n : Nat} (h : roundNat n = m) (hm : m < 2 ^ 53) : n = m := by
  by_cases hn : n < 2 ^ 53
  · rwa [roundNat_of_lt hn] at h
  · have := le_roundNat (not_lt.mp hn)
    omega

lemma candidate_reads {m j n : Nat} (h : candidate m j = some n) : roundNat n = m := by
  unfold candidate at h
  dsimp only at h
  split_ifs at h with hlow hhigh
  · rw [← Option.some.inj h]
    exact hlow.1
  · rw [← Option.some.inj h]
    exact hhigh

lemma shortest_of_lt {m : Nat} (h : m < 2 ^ 53) : shortest m = m := by
  unfold shortest
  cases hfound : (List.range 22).reverse.findSome? (candidate m) with
  | none => rfl
  | some n =>
    obtain ⟨j, -, hj⟩ := List.exists_of_findSome?_eq_some hfound
    exact eq_of_roundNat (candidate_reads hj) h

theorem toDouble_of_lt {n : Int} (h : n.natAbs < 2 ^ 53) : toDouble n = n := by
  cases n with
  | ofNat m => exact congrArg Int.ofNat (roundNat_of_lt h)
  | negSucc m =>
    have hm : roundNat (m + 1) = m + 1 := roundNat_of_lt h
    change -(roundNat (m + 1) : Int) = _
    rw [hm]
    rfl

theorem printed_of_lt {n : Int} (h : n.natAbs < 2 ^ 53) : printed n = n := by
  cases n with
  | ofNat m => exact congrArg Int.ofNat (shortest_of_lt h)
  | negSucc m =>
    have hm : shortest (m + 1) = m + 1 := shortest_of_lt h
    change -(shortest (m + 1) : Int) = _
    rw [hm]
    rfl

end Peal.JsNumbers
