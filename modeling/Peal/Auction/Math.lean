import Peal.Auction.Types
import Peal.Library.Fallible

namespace Peal.Auction
open Peal.Fallible

inductive Rounding where
  | floor | ceil
  deriving DecidableEq, Repr

/-- A checked `uint256` result. -/
def uint256 (n : Nat) : Except Revert Nat := checked (.panic 0x11) 256 n

/-- `Math.mulDiv` with its full 512-bit product; rounding up adds one with a checked addition. -/
def mulDiv (x y denominator : Nat) (rounding : Rounding) : Except Revert Nat := do
  require (denominator ≠ 0) (.panic 0x12)
  let quotient ← uint256 (x * y / denominator)
  match rounding with
  | .floor => .ok quotient
  | .ceil => uint256 (quotient + if 0 < x * y % denominator then 1 else 0)

def priceAt (reservePrice tickSize tick : Nat) : Except Revert Nat := do
  let step ← uint256 (tick * tickSize)
  uint256 (reservePrice + step)

/-- `10 ** saleDecimals` in checked arithmetic. -/
def wholeToken (saleDecimals : Nat) : Except Revert Nat := uint256 (10 ^ saleDecimals)

def costFloor (quantity price saleDecimals : Nat) : Except Revert Nat := do
  let unit ← wholeToken saleDecimals
  mulDiv quantity price unit .floor

def costCeil (quantity price saleDecimals : Nat) : Except Revert Nat := do
  let unit ← wholeToken saleDecimals
  mulDiv quantity price unit .ceil

def escrowFor (quantity reservePrice tickSize maxTick saleDecimals : Nat) : Except Revert Nat := do
  let price ← priceAt reservePrice tickSize maxTick
  costCeil quantity price saleDecimals

def feeOn (proceeds feeBps : Nat) : Except Revert Nat :=
  mulDiv proceeds feeBps 10000 .floor

@[simp] lemma uint256_eq_ok {n m : Nat} : uint256 n = .ok m ↔ n < 2 ^ 256 ∧ n = m :=
  checked_eq_ok

lemma mulDiv_floor_eq_ok {x y d m : Nat} :
    mulDiv x y d .floor = .ok m ↔ d ≠ 0 ∧ x * y / d < 2 ^ 256 ∧ x * y / d = m := by
  simp [mulDiv]

lemma ceil_step (n d : Nat) (hd : 0 < d) :
    n / d + (if 0 < n % d then 1 else 0) = (n + d - 1) / d := by
  have hn : d * (n / d) + n % d = n := Nat.div_add_mod n d
  have hlt : n % d < d := Nat.mod_lt n hd
  generalize n / d = q at hn ⊢
  generalize n % d = r at hn hlt ⊢
  subst hn
  by_cases hr : 0 < r
  · have h : d * q + r + d - 1 = d * (q + 1) + (r - 1) := by
      rw [Nat.mul_add]
      omega
    rw [if_pos hr, h, Nat.mul_add_div hd, Nat.div_eq_of_lt (by omega), Nat.add_zero]
  · have h : d * q + r + d - 1 = d * q + (d - 1) := by omega
    rw [if_neg hr, h, Nat.mul_add_div hd, Nat.div_eq_of_lt (by omega)]

lemma mulDiv_ceil_eq_ok {x y d m : Nat} :
    mulDiv x y d .ceil = .ok m ↔
      d ≠ 0 ∧ (x * y + d - 1) / d < 2 ^ 256 ∧ (x * y + d - 1) / d = m := by
  simp only [mulDiv, bind_eq_ok, require_eq_ok, uint256_eq_ok]
  constructor
  · rintro ⟨-, hd, q, ⟨-, rfl⟩, h⟩
    rw [ceil_step _ _ (Nat.pos_of_ne_zero hd)] at h
    exact ⟨hd, h⟩
  · rintro ⟨hd, hlt, rfl⟩
    have hle : x * y / d ≤ (x * y + d - 1) / d := Nat.div_le_div_right (by omega)
    refine ⟨(), hd, _, ⟨lt_of_le_of_lt hle hlt, rfl⟩, ?_⟩
    rw [ceil_step _ _ (Nat.pos_of_ne_zero hd)]
    exact ⟨hlt, rfl⟩

lemma priceAt_eq_ok {reservePrice tickSize tick p : Nat} :
    priceAt reservePrice tickSize tick = .ok p ↔
      reservePrice + tick * tickSize < 2 ^ 256 ∧ reservePrice + tick * tickSize = p := by
  simp only [priceAt, bind_eq_ok, uint256_eq_ok]
  constructor
  · rintro ⟨q, ⟨-, rfl⟩, h⟩
    exact h
  · rintro ⟨hlt, h⟩
    exact ⟨_, ⟨by omega, rfl⟩, hlt, h⟩

lemma costFloor_eq_ok {quantity price d c : Nat} :
    costFloor quantity price d = .ok c ↔
      10 ^ d < 2 ^ 256 ∧ quantity * price / 10 ^ d < 2 ^ 256 ∧ quantity * price / 10 ^ d = c := by
  simp only [costFloor, wholeToken, bind_eq_ok, uint256_eq_ok, mulDiv_floor_eq_ok]
  constructor
  · rintro ⟨u, ⟨hu, rfl⟩, -, h⟩
    exact ⟨hu, h⟩
  · rintro ⟨hu, h⟩
    exact ⟨_, ⟨hu, rfl⟩, by positivity, h⟩

lemma costCeil_eq_ok {quantity price d c : Nat} :
    costCeil quantity price d = .ok c ↔
      10 ^ d < 2 ^ 256 ∧ (quantity * price + 10 ^ d - 1) / 10 ^ d < 2 ^ 256 ∧
        (quantity * price + 10 ^ d - 1) / 10 ^ d = c := by
  simp only [costCeil, wholeToken, bind_eq_ok, uint256_eq_ok, mulDiv_ceil_eq_ok]
  constructor
  · rintro ⟨u, ⟨hu, rfl⟩, -, h⟩
    exact ⟨hu, h⟩
  · rintro ⟨hu, h⟩
    exact ⟨_, ⟨hu, rfl⟩, by positivity, h⟩

lemma escrowFor_eq_ok {quantity reservePrice tickSize maxTick d c : Nat} :
    escrowFor quantity reservePrice tickSize maxTick d = .ok c ↔
      reservePrice + maxTick * tickSize < 2 ^ 256 ∧ 10 ^ d < 2 ^ 256 ∧
        (quantity * (reservePrice + maxTick * tickSize) + 10 ^ d - 1) / 10 ^ d < 2 ^ 256 ∧
        (quantity * (reservePrice + maxTick * tickSize) + 10 ^ d - 1) / 10 ^ d = c := by
  simp only [escrowFor, bind_eq_ok, priceAt_eq_ok, costCeil_eq_ok]
  constructor
  · rintro ⟨p, ⟨hp, rfl⟩, h⟩
    exact ⟨hp, h⟩
  · rintro ⟨hp, h⟩
    exact ⟨_, ⟨hp, rfl⟩, h⟩

lemma feeOn_eq_ok {proceeds feeBps f : Nat} :
    feeOn proceeds feeBps = .ok f ↔
      proceeds * feeBps / 10000 < 2 ^ 256 ∧ proceeds * feeBps / 10000 = f := by
  simp [feeOn, mulDiv_floor_eq_ok]

lemma floor_le_ceil_cost {q q' p p' unit : Nat} (hq : q ≤ q') (hp : p ≤ p') (hu : 0 < unit) :
    q * p / unit ≤ (q' * p' + unit - 1) / unit := by
  have hmul : q * p ≤ q' * p' := Nat.mul_le_mul hq hp
  exact Nat.div_le_div_right (by omega)

end Peal.Auction
