import Peal.Auction.Math
import Peal.Library.UniformPrice

namespace Peal.Auction
open Peal.Fallible Peal.UniformPrice

def maxTicks : Nat := 256

/-- The loop of `findClearingTick`: the ticks below `i` are still to scan and the ones from `i` up
hold `cumulative`. It ends with a result, or with the whole demand when no tick reached the supply. -/
def scanTicks (demandByTick : List Nat) (supply : Nat) : Nat → Nat → Except Revert (Result ⊕ Nat)
  | 0, cumulative => .ok (.inr cumulative)
  | tick + 1, cumulativeBefore => do
    let demandHere := demandByTick.getD tick 0
    let cumulative ← uint256 (cumulativeBefore + demandHere)
    if supply ≤ cumulative then
      .ok (.inl ⟨true, tick, supply, demandHere, supply - cumulativeBefore⟩)
    else scanTicks demandByTick supply tick cumulative

def findClearingTick (demandByTick : List Nat) (supply : Nat) : Except Revert Result := do
  require (0 < demandByTick.length ∧ demandByTick.length ≤ maxTicks)
    (.required "ClearingPrice: bad tick count")
  require (0 < supply) (.required "ClearingPrice: zero supply")
  match ← scanTicks demandByTick supply demandByTick.length 0 with
  | .inl result => .ok result
  | .inr cumulative =>
    if cumulative = 0 then .ok default
    else .ok ⟨true, 0, cumulative, demandByTick.getD 0 0, demandByTick.getD 0 0⟩

def allocationFor (result : Result) (bidQuantity bidTick : Nat) : Except Revert Nat :=
  if result.cleared = false then .ok 0
  else if bidTick < result.clearingTick then .ok 0
  else if result.clearingTick < bidTick then .ok bidQuantity
  else if result.demandAtClearingTick ≤ result.supplyForClearingTick then .ok bidQuantity
  else mulDiv bidQuantity result.supplyForClearingTick result.demandAtClearingTick .floor

/-! ### The scan finds the uniform-price clearing of the book behind the buckets -/

/-- The demand buckets hold exactly the orders of `book`. -/
structure Buckets (demand : List Nat) (book : List Order) : Prop where
  in_range : ∀ o ∈ book, o.tick < demand.length
  bucket : ∀ t < demand.length, demand.getD t 0 = demandAt book t

/-- The clearing of `book`, as the contract records it. -/
def clearingOf (book : List Order) (supply numTicks : Nat) : Result :=
  if demandFrom book 0 = 0 then default
  else if demandFrom book 0 < supply then
    ⟨true, 0, demandFrom book 0, demandAt book 0, demandAt book 0⟩
  else ⟨true, clearingTick book supply numTicks, supply,
    demandAt book (clearingTick book supply numTicks), shared book supply numTicks⟩

lemma clearingOf_undersubscribed {book : List Order} {supply numTicks : Nat}
    (hsome : demandFrom book 0 ≠ 0) (hfull : demandFrom book 0 < supply) :
    clearingOf book supply numTicks = ⟨true, 0, demandFrom book 0, demandAt book 0, demandAt book 0⟩ := by
  unfold clearingOf
  rw [if_neg hsome, if_pos hfull]

lemma clearingOf_covered {book : List Order} {supply numTicks : Nat} (hs : 0 < supply)
    (hfull : supply ≤ demandFrom book 0) :
    clearingOf book supply numTicks = ⟨true, clearingTick book supply numTicks, supply,
      demandAt book (clearingTick book supply numTicks), shared book supply numTicks⟩ := by
  unfold clearingOf
  rw [if_neg (by omega), if_neg (by omega)]

section Scan

variable {demand : List Nat} {book : List Order} {supply : Nat}

lemma scanTicks_spec (hb : Buckets demand book) {i : Nat} (hi : i ≤ demand.length)
    (hlt : demandFrom book i < supply) (out : Result ⊕ Nat) :
    scanTicks demand supply i (demandFrom book i) = .ok out ↔
      (∃ t < i, demandFrom book (t + 1) < supply ∧ supply ≤ demandFrom book t ∧
        demandFrom book t < 2 ^ 256 ∧
        out = .inl ⟨true, t, supply, demandAt book t, supply - demandFrom book (t + 1)⟩) ∨
      (demandFrom book 0 < supply ∧ (0 < i → demandFrom book 0 < 2 ^ 256) ∧
        out = .inr (demandFrom book 0)) := by
  induction i with
  | zero =>
    constructor
    · intro h
      exact Or.inr ⟨hlt, by omega, by simpa [scanTicks] using h.symm⟩
    · rintro (⟨t, ht, -⟩ | ⟨-, -, rfl⟩)
      · omega
      · rfl
  | succ tick ih =>
    have hhere := hb.bucket tick (by omega)
    have hstep := demandFrom_step book tick
    have hsum : demandFrom book (tick + 1) + demandAt book tick = demandFrom book tick := by omega
    simp only [scanTicks, bind_eq_ok, uint256_eq_ok, hhere, hsum]
    by_cases hreach : supply ≤ demandFrom book tick
    · have hnone : ∀ t < tick, ¬demandFrom book (t + 1) < supply := by
        intro t ht
        have := demandFrom_antitone book (show t + 1 ≤ tick by omega)
        omega
      have htotal := demandFrom_antitone book (Nat.zero_le tick)
      constructor
      · rintro ⟨c, ⟨hfit, rfl⟩, h⟩
        rw [if_pos hreach, Except.ok.injEq] at h
        exact Or.inl ⟨tick, by omega, hlt, hreach, hfit, h.symm⟩
      · rintro (⟨t, ht, hbelow, -, hfit, rfl⟩ | ⟨h, -⟩)
        · have heq : t = tick := by
            by_contra hne
            exact hnone t (by omega) hbelow
          subst heq
          exact ⟨_, ⟨hfit, rfl⟩, by rw [if_pos hreach]⟩
        · omega
    · have hrec := ih (by omega) (by omega)
      constructor
      · rintro ⟨c, ⟨hfit, rfl⟩, h⟩
        rw [if_neg hreach, hrec] at h
        rcases h with ⟨t, ht, h⟩ | ⟨h, hfit', rfl⟩
        · exact Or.inl ⟨t, by omega, h⟩
        · refine Or.inr ⟨h, fun _ => ?_, rfl⟩
          by_cases hpos : 0 < tick
          · exact hfit' hpos
          · have hzero : tick = 0 := by omega
            exact hzero ▸ hfit
      · intro h
        have hfit : demandFrom book tick < 2 ^ 256 := by
          rcases h with ⟨t, ht, -, hcov, hfit, -⟩ | ⟨-, hfit, -⟩
          · exact lt_of_le_of_lt (demandFrom_antitone book (by
              by_contra hgt
              have := demandFrom_antitone book (show tick + 1 ≤ t by omega)
              omega)) hfit
          · exact lt_of_le_of_lt (demandFrom_antitone book (Nat.zero_le tick)) (hfit (by omega))
        refine ⟨_, ⟨hfit, rfl⟩, ?_⟩
        rw [if_neg hreach, hrec]
        rcases h with ⟨t, ht, hbelow, hcov, hfit', rfl⟩ | ⟨h, hfit', rfl⟩
        · have hne : t ≠ tick := by
            rintro rfl
            exact hreach hcov
          exact Or.inl ⟨t, by omega, hbelow, hcov, hfit', rfl⟩
        · exact Or.inr ⟨h, fun _ => hfit' (by omega), rfl⟩

/-- `findClearingTick` is the uniform-price clearing of the book, and reverts only when the demand at
and above the clearing tick does not fit a word. -/
theorem findClearingTick_eq_ok (hb : Buckets demand book) (hlen : 0 < demand.length)
    (hmax : demand.length ≤ maxTicks) (hs : 0 < supply) {r : Result} :
    findClearingTick demand supply = .ok r ↔
      demandFrom book (clearingTick book supply demand.length) < 2 ^ 256 ∧
        r = clearingOf book supply demand.length := by
  have hzero : demandFrom book demand.length = 0 := demandFrom_eq_zero hb.in_range
  have hscan := scanTicks_spec hb le_rfl (by omega : demandFrom book demand.length < supply)
  rw [hzero] at hscan
  have hbucket := hb.bucket 0 hlen
  simp only [findClearingTick, bind_eq_ok, require_eq_ok]
  by_cases hfull : demandFrom book 0 < supply
  · have htick := clearingTick_undersubscribed book supply demand.length hfull
    have hout (out : Result ⊕ Nat) : scanTicks demand supply demand.length 0 = .ok out ↔
        demandFrom book 0 < 2 ^ 256 ∧ out = .inr (demandFrom book 0) := by
      rw [hscan]
      constructor
      · rintro (⟨t, ht, hlt, hle, -⟩ | ⟨-, hfit, rfl⟩)
        · have := demandFrom_antitone book (Nat.zero_le t)
          omega
        · exact ⟨hfit hlen, rfl⟩
      · rintro ⟨hfit, rfl⟩
        exact Or.inr ⟨hfull, fun _ => hfit, rfl⟩
    have hend (r : Result) : (if demandFrom book 0 = 0 then (.ok default : Except Revert Result)
        else .ok ⟨true, 0, demandFrom book 0, demand.getD 0 0, demand.getD 0 0⟩) = .ok r ↔
        r = clearingOf book supply demand.length := by
      rw [hbucket]
      unfold clearingOf
      rw [if_pos hfull]
      by_cases hnone : demandFrom book 0 = 0
      · rw [if_pos hnone, if_pos hnone, Except.ok.injEq, eq_comm]
      · rw [if_neg hnone, if_neg hnone, Except.ok.injEq, eq_comm]
    rw [htick]
    constructor
    · rintro ⟨-, -, -, -, out, h, hr⟩
      obtain ⟨hfit, rfl⟩ := (hout out).mp h
      exact ⟨hfit, (hend r).mp hr⟩
    · rintro ⟨hfit, hr⟩
      exact ⟨(), ⟨hlen, hmax⟩, (), hs, _, (hout _).mpr ⟨hfit, rfl⟩, (hend r).mpr hr⟩
  · rw [clearingOf_covered hs (by omega)]
    constructor
    · rintro ⟨-, -, -, -, out, h, hr⟩
      rcases (hscan out).mp h with ⟨t, ht, hbelow, hcov, hfit, rfl⟩ | ⟨h, -⟩
      · have htick := clearingTick_unique book supply demand.length (by omega) hcov hbelow
        unfold shared
        rw [htick]
        exact ⟨hfit, (Except.ok.inj hr).symm⟩
      · exact absurd h hfull
    · rintro ⟨hfit, rfl⟩
      have hcov : supply ≤ demandFrom book (clearingTick book supply demand.length) := by
        rcases clearingTick_covers book supply demand.length with h | h
        · exact h
        · exact absurd h.2 hfull
      have hbelow := demandFrom_above_lt book supply demand.length hb.in_range hs
        (Nat.lt_add_one (clearingTick book supply demand.length))
      have hle := clearingTick_le book supply demand.length
      exact ⟨(), ⟨hlen, hmax⟩, (), hs, _,
        (hscan _).mpr (Or.inl ⟨_, by omega, hbelow, hcov, hfit, rfl⟩), rfl⟩

end Scan

section Allocation

variable {book : List Order} {supply numTicks : Nat}

lemma clearingOf_cleared : (clearingOf book supply numTicks).cleared = true ↔
    demandFrom book 0 ≠ 0 := by
  unfold clearingOf
  split_ifs with hnone hfull
  · exact ⟨fun h => absurd h (by decide), fun h => absurd hnone h⟩
  · exact ⟨fun _ => hnone, fun _ => rfl⟩
  · exact ⟨fun _ => hnone, fun _ => rfl⟩

lemma clearingOf_tick (hsome : demandFrom book 0 ≠ 0) :
    (clearingOf book supply numTicks).clearingTick = clearingTick book supply numTicks := by
  unfold clearingOf
  rw [if_neg hsome]
  split_ifs with hfull
  · exact (clearingTick_undersubscribed book supply numTicks hfull).symm
  · rfl

lemma clearingOf_sold (hs : 0 < supply) (hsome : demandFrom book 0 ≠ 0) :
    (clearingOf book supply numTicks).supplySold = sold book supply := by
  unfold sold
  by_cases hfull : demandFrom book 0 < supply
  · rw [clearingOf_undersubscribed hsome hfull, min_eq_right (le_of_lt hfull)]
  · rw [clearingOf_covered hs (by omega), min_eq_left (by omega)]

/-- The contract's allocation is the uniform-price fill. -/
theorem allocationFor_eq_fill (hs : 0 < supply) (hsome : demandFrom book 0 ≠ 0)
    (hfit : demandFrom book (clearingTick book supply numTicks) < 2 ^ 256) {o : Order}
    (ho : o ∈ book) : allocationFor (clearingOf book supply numTicks) o.quantity o.tick =
      .ok (fill book supply numTicks o) := by
  have hcleared : (clearingOf book supply numTicks).cleared = true := clearingOf_cleared.mpr hsome
  unfold allocationFor fill
  rw [hcleared, clearingOf_tick hsome, if_neg (by decide)]
  by_cases hbelow : o.tick < clearingTick book supply numTicks
  · rw [if_pos hbelow, if_pos hbelow]
  by_cases habove : clearingTick book supply numTicks < o.tick
  · rw [if_neg hbelow, if_pos habove, if_neg hbelow, if_pos habove]
  rw [if_neg hbelow, if_neg habove, if_neg hbelow, if_neg habove]
  unfold ration
  by_cases hfull : demandFrom book 0 < supply
  · -- nobody at the reserve is rationed when the whole book is smaller than the supply
    have hzero := clearingTick_undersubscribed book supply numTicks hfull
    have hstep := demandFrom_step book 0
    rw [clearingOf_undersubscribed hsome hfull, if_pos (le_refl (demandAt book 0))]
    unfold shared
    rw [hzero, if_pos (by omega)]
  · rw [clearingOf_covered hs (by omega)]
    dsimp only
    by_cases hroom : demandAt book (clearingTick book supply numTicks) ≤ shared book supply numTicks
    · rw [if_pos hroom, if_pos hroom]
    · have hon : o.tick = clearingTick book supply numTicks := by omega
      have hq := quantity_le_demandAt ho
      have hstep := demandFrom_step book (clearingTick book supply numTicks)
      have hle := ration_le book supply numTicks o.quantity
      unfold ration at hle
      rw [if_neg hroom] at hle
      rw [hon] at hq
      rw [if_neg hroom, if_neg hroom, mulDiv_floor_eq_ok]
      exact ⟨by omega, by omega, rfl⟩

end Allocation

end Peal.Auction
