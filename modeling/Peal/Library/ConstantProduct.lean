import Mathlib.Tactic

namespace Peal.ConstantProduct

/-! # Trading along a constant product

A trade pays `a` against a reserve `x` and takes out of a reserve `y`; the share `num / den` of what is paid counts. -/

def amountOut (num den x y a : Nat) : Nat := y * (a * num) / (x * den + a * num)

variable {num den x y a : Nat}

lemma amountOut_lt (hden : 0 < den) (hx : 0 < x) (hy : 0 < y) : amountOut num den x y a < y := by
  have hpos : 0 < x * den := Nat.mul_pos hx hden
  have hless : a * num < x * den + a * num := by omega
  apply Nat.div_lt_of_lt_mul
  calc y * (a * num) < y * (x * den + a * num) := Nat.mul_lt_mul_of_pos_left hless hy
    _ = (x * den + a * num) * y := Nat.mul_comm _ _

lemma amountOut_le : amountOut num den x y a ≤ y := by
  refine Nat.div_le_of_le_mul ?_
  rw [Nat.mul_comm]
  exact Nat.mul_le_mul_right y (Nat.le_add_left _ _)

lemma amountOut_mul_le (hden : 0 < den) (hnum : num ≤ den) :
    amountOut num den x y a * x ≤ (y - amountOut num den x y a) * a := by
  have hfloor : amountOut num den x y a * (x * den + a * num) ≤ y * (a * num) := Nat.div_mul_le_self _ _
  have hle : amountOut num den x y a ≤ y := amountOut_le
  generalize amountOut num den x y a = out at hfloor hle ⊢
  obtain ⟨rest, rfl⟩ := Nat.exists_eq_add_of_le hle
  rw [Nat.add_sub_cancel_left]
  have hpaid : out * x * den ≤ rest * a * num := by nlinarith
  have hfee : rest * a * num ≤ rest * a * den := Nat.mul_le_mul_left _ hnum
  exact Nat.le_of_mul_le_mul_right (hpaid.trans hfee) hden

/-- A trade never lowers the product of the reserves. -/
theorem product_le (hden : 0 < den) (hnum : num ≤ den) :
    x * y ≤ (x + a) * (y - amountOut num den x y a) := by
  have hworth := amountOut_mul_le (x := x) (y := y) (a := a) hden hnum
  have hle : amountOut num den x y a ≤ y := amountOut_le
  generalize amountOut num den x y a = out at hworth hle ⊢
  obtain ⟨rest, rfl⟩ := Nat.exists_eq_add_of_le hle
  rw [Nat.add_sub_cancel_left] at hworth ⊢
  nlinarith

/-- A deeper reserve in and a shallower reserve out make the same payment buy less. -/
theorem amountOut_antitone {x' y' : Nat} (hden : 0 < den) (hx : 0 < x) (hxx : x ≤ x') (hyy : y' ≤ y) :
    amountOut num den x' y' a ≤ amountOut num den x y a := by
  have hpos : 0 < x * den := Nat.mul_pos hx hden
  have hdenominator : x * den + a * num ≤ x' * den + a * num :=
    Nat.add_le_add_right (Nat.mul_le_mul_right den hxx) _
  have hnumerator : y' * (a * num) ≤ y * (a * num) := Nat.mul_le_mul_right _ hyy
  exact Nat.div_le_div hnumerator hdenominator (by omega)

/-- Who pays more buys no less. -/
theorem amountOut_mono {b : Nat} (hden : 0 < den) (hx : 0 < x) (hab : a ≤ b) :
    amountOut num den x y a ≤ amountOut num den x y b := by
  have hpos : 0 < x * den := Nat.mul_pos hx hden
  have hpaid : a * num ≤ b * num := Nat.mul_le_mul_right num hab
  have hfloor : amountOut num den x y a * (x * den + a * num) ≤ y * (a * num) := Nat.div_mul_le_self _ _
  have hle : amountOut num den x y a ≤ y := amountOut_le
  generalize amountOut num den x y a = out at hfloor hle ⊢
  rw [amountOut, Nat.le_div_iff_mul_le (by omega)]
  -- What more is paid adds to both sides, and more to the right one.
  obtain ⟨more, hmore⟩ := Nat.exists_eq_add_of_le hpaid
  rw [hmore]
  calc out * (x * den + (a * num + more)) = out * (x * den + a * num) + out * more := by ring
    _ ≤ y * (a * num) + y * more := Nat.add_le_add hfloor (Nat.mul_le_mul_right more hle)
    _ = y * (a * num + more) := (Nat.mul_add y _ more).symm

/-- What a payment `v` buys after another has paid `a` in the same direction. -/
def amountAfter (num den x y v a : Nat) : Nat := amountOut num den (x + a) (y - amountOut num den x y a) v

/-- The more is paid ahead of it, the less a payment buys. -/
theorem amountAfter_antitone {b v : Nat} (hden : 0 < den) (hx : 0 < x) (hab : a ≤ b) :
    amountAfter num den x y v b ≤ amountAfter num den x y v a :=
  amountOut_antitone hden (Nat.add_pos_left hx a) (Nat.add_le_add_left hab x)
    (Nat.sub_le_sub_left (amountOut_mono hden hx hab) y)

/-- On a product that has not fallen, a reserve that has not grown leaves the other one no smaller. -/
theorem other_reserve_le {x' y' : Nat} (hx : 0 < x) (hproduct : x * y ≤ x' * y') (hxx : x' ≤ x) : y ≤ y' :=
  Nat.le_of_mul_le_mul_left (hproduct.trans (Nat.mul_le_mul_right y' hxx)) hx

end Peal.ConstantProduct
