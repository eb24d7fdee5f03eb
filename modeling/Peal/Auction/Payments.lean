import Peal.Auction.Recovery

namespace Peal.Auction
open Peal.Fallible Peal.Runs SealedBidAuction

/-! # What a claim charges -/

section Charges

variable {cfg : Config} {b : Bid} {r : Result} {price : Nat}

lemma allocationFor_le (r : Result) {quantity tick : Nat} (hq : quantity < 2 ^ 256) :
    ∃ tokens, allocationFor r quantity tick = .ok tokens ∧ tokens ≤ quantity ∧
      (tick < r.clearingTick → tokens = 0) := by
  unfold allocationFor
  by_cases hcleared : r.cleared = false
  · exact ⟨0, by rw [if_pos hcleared], Nat.zero_le _, fun _ => rfl⟩
  by_cases hbelow : tick < r.clearingTick
  · exact ⟨0, by rw [if_neg hcleared, if_pos hbelow], Nat.zero_le _, fun _ => rfl⟩
  by_cases habove : r.clearingTick < tick
  · exact ⟨quantity, by rw [if_neg hcleared, if_neg hbelow, if_pos habove], le_rfl, fun h => absurd h hbelow⟩
  by_cases hroom : r.demandAtClearingTick ≤ r.supplyForClearingTick
  · exact ⟨quantity, by rw [if_neg hcleared, if_neg hbelow, if_neg habove, if_pos hroom], le_rfl,
      fun h => absurd h hbelow⟩
  · have hle : quantity * r.supplyForClearingTick / r.demandAtClearingTick ≤ quantity := by
      refine Nat.div_le_of_le_mul ?_
      rw [Nat.mul_comm r.demandAtClearingTick]
      exact Nat.mul_le_mul_left _ (by omega)
    refine ⟨_, ?_, hle, fun h => absurd h hbelow⟩
    rw [if_neg hcleared, if_neg hbelow, if_neg habove, if_neg hroom, mulDiv_floor_eq_ok]
    exact ⟨by omega, hle.trans_lt hq, rfl⟩

lemma charge_covered (hel : isEligible cfg b b.quantity b.tick = .ok true) (hq : b.quantity < 2 ^ 256)
    (hprice : priceAt cfg.reservePrice cfg.tickSize r.clearingTick = .ok price) :
    ∃ tokens paid, allocationFor r b.quantity b.tick = .ok tokens ∧
      costFloor tokens price cfg.saleDecimals = .ok paid ∧ paid ≤ b.escrow := by
  obtain ⟨needed, hneeded, hescrow⟩ := isEligible_true hel
  obtain ⟨-, hunit, hlt, rfl⟩ := escrowFor_eq_ok.mp hneeded
  obtain ⟨-, rfl⟩ := priceAt_eq_ok.mp hprice
  obtain ⟨tokens, htokens, hle, hbelow⟩ := @allocationFor_le r _ b.tick hq
  have hcharge : tokens * (cfg.reservePrice + r.clearingTick * cfg.tickSize) / 10 ^ cfg.saleDecimals ≤
      (b.quantity * (cfg.reservePrice + b.tick * cfg.tickSize) + 10 ^ cfg.saleDecimals - 1) / 10 ^ cfg.saleDecimals := by
    by_cases htick : b.tick < r.clearingTick
    · rw [hbelow htick, Nat.zero_mul, Nat.zero_div]
      exact Nat.zero_le _
    · have hstep := Nat.mul_le_mul_right cfg.tickSize (Nat.le_of_not_lt htick)
      exact floor_le_ceil_cost hle (by omega) (by positivity)
  exact ⟨tokens, _, htokens, costFloor_eq_ok.mpr ⟨hunit, by omega, rfl⟩, by omega⟩

end Charges

/-- A claim subtracts a charge that the escrow covers. -/
def ClaimCovered (a : SealedBidAuction) (b : Bid) : Prop :=
  ∃ tokens paid, a.allocationOf b = .ok tokens ∧
    costFloor tokens a.clearingPrice a.config.saleDecimals = .ok paid ∧ paid ≤ b.escrow ∧
    a.claimAmounts b = .ok (tokens, b.escrow - paid)

lemma claimCovered_of_settled {a : SealedBidAuction} (h : Tallied a) (hw : SettledWell a) (hs : a.state = .settled)
    {b : Bid} (hb : b ∈ a.bids) : ClaimCovered a b := by
  have hprice : a.clearingPrice = priceFor a.config a.bids := by
    rw [hw.price, hw.clearing, priceOf_clearingFor hw.demanded]
  obtain ⟨hfit, hle⟩ := charge_fits a.config a.bids b
  refine ⟨_, _, h.allocationOf_eq hw hs hb, ?_, hle, h.claimAmounts_eq hw hs hb⟩
  rw [hprice]
  exact costFloor_eq_ok.mpr ⟨hw.arithmetic.unit, hfit, rfl⟩

/-- The escrow of an eligible bid covers its charge under every clearing result, and in every settled auction the claim
of every bid, eligible or not. -/
theorem escrow_covers_payment :
    (∀ (cfg : Config) (b : Bid) (r : Result) (price : Nat), isEligible cfg b b.quantity b.tick = .ok true →
      b.quantity < 2 ^ 256 → priceAt cfg.reservePrice cfg.tickSize r.clearingTick = .ok price →
        ∃ tokens paid, allocationFor r b.quantity b.tick = .ok tokens ∧
          costFloor tokens price cfg.saleDecimals = .ok paid ∧ paid ≤ b.escrow) ∧
      ∀ (env : Env) (registry : CommitteeRegistry) (cfg : Config) (a : SealedBidAuction) (sale quote : ERC20)
        (calls : List (Msg env × Call)), initializeAuction registry cfg = .ok a →
          (exec (step env) ⟨a, registry, sale, quote⟩ calls).auction.state = .settled →
            ∀ b ∈ (exec (step env) ⟨a, registry, sale, quote⟩ calls).auction.bids,
              ClaimCovered (exec (step env) ⟨a, registry, sale, quote⟩ calls).auction b := by
  refine ⟨fun cfg b r price hel hq hprice => charge_covered hel hq hprice, ?_⟩
  intro env registry cfg a sale quote calls ha hs b hb
  have hinv := (solvent_unless_settled ha sale quote calls).1
  exact claimCovered_of_settled hinv.tallied (hinv.staged.settled hs) hs hb

lemma sampleCalls_settled : (exec (step sampleEnv) sampleWorld sampleCalls).auction.state = .settled := by decide +kernel

/-- Half the bid is allotted at a price of five for ten units, under an escrow of one. -/
theorem escrow_covers_sample :
    (∃ tokens paid, allocationFor ⟨true, 0, 1, 2, 1⟩ 2 0 = .ok tokens ∧ costFloor tokens 5 1 = .ok paid ∧ paid ≤ 1) ∧
      ∀ b ∈ (exec (step sampleEnv) sampleWorld sampleCalls).auction.bids,
        ClaimCovered (exec (step sampleEnv) sampleWorld sampleCalls).auction b :=
  ⟨escrow_covers_payment.1 sampleConfig
      ⟨40, 0, 0, 1, 11, true, false, false, 2, 0⟩ ⟨true, 0, 1, 2, 1⟩ 5 (by decide) (by decide) (by decide),
    escrow_covers_payment.2 sampleEnv sampleRegistry sampleConfig sampleAuction sampleToken sampleToken sampleCalls rfl
      sampleCalls_settled⟩

end Peal.Auction
