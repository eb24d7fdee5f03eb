import Peal.Auction.Tally

namespace Peal.Auction
open Peal.Fallible Peal.UniformPrice Peal.Runs Peal.Rows SealedBidAuction

/-! # Settlement is the uniform-price clearing of the book -/

section Clearing

variable {a : SealedBidAuction}

/-- The clearing of the recorded bids under the auction's own terms. -/
def clearingFor (cfg : Config) (bids : List Bid) : Result :=
  clearingOf (book cfg bids) cfg.totalSupply cfg.numTicks

def clearsAt (cfg : Config) (bids : List Bid) : Nat :=
  clearingTick (book cfg bids) cfg.totalSupply cfg.numTicks

/-- A bid's share of the sale. -/
def allotted (cfg : Config) (bids : List Bid) (b : Bid) : Nat :=
  if counts cfg b then fill (book cfg bids) cfg.totalSupply cfg.numTicks ⟨b.quantity, b.tick⟩ else 0

def winnings (cfg : Config) (bids : List Bid) : List Nat :=
  (book cfg bids).map (fill (book cfg bids) cfg.totalSupply cfg.numTicks)

lemma mem_book {cfg : Config} {bids : List Bid} {o : Order} :
    o ∈ book cfg bids ↔ ∃ b ∈ bids, counts cfg b = true ∧ o = ⟨b.quantity, b.tick⟩ := by
  simp only [book, standing, List.mem_filterMap, Option.ite_none_right_eq_some, Option.some.injEq]
  constructor
  · rintro ⟨b, hb, hc, rfl⟩
    exact ⟨b, hb, hc, rfl⟩
  · rintro ⟨b, hb, hc, rfl⟩
    exact ⟨b, hb, hc, rfl⟩

lemma Tallied.tick_lt (h : Tallied a) {o : Order} (ho : o ∈ book a.config a.bids) :
    o.tick < a.config.numTicks := by
  obtain ⟨b, hb, hc, rfl⟩ := mem_book.mp ho
  obtain ⟨hr, hv, -⟩ := counts_iff.mp hc
  exact (h.checked b hb hr hv).1

lemma Tallied.buckets (h : Tallied a) : Buckets a.demand (book a.config a.bids) := by
  have hlen : a.demand.length = a.config.numTicks := by simp [SealedBidAuction.demand]
  refine ⟨fun o ho => ?_, fun t ht => ?_⟩
  · rw [hlen]
    exact h.tick_lt ho
  · rw [hlen] at ht
    rw [← h.demand t]
    simp [SealedBidAuction.demand, ht]

/-- Under the tally, `finalize` is determined by the book alone. -/
theorem Tallied.finalize_eq_ok (h : Tallied a) {env : Env} {msg : Msg env} {a' : SealedBidAuction} :
    SealedBidAuction.finalize env a msg = .ok a' ↔
      a.state = .revealing ∧ a.WindowPassed msg.timestamp ∧ a.processedBidCount = a.bids.length ∧
        demandFrom (book a.config a.bids) (clearsAt a.config a.bids) < 2 ^ 256 ∧
        ((demandFrom (book a.config a.bids) 0 ≠ 0 ∧
            SettlementFits a.config (clearingFor a.config a.bids) ∧
            a' = a.afterSettle (clearingFor a.config a.bids)) ∨
          (demandFrom (book a.config a.bids) 0 = 0 ∧ a' = { a with state := .failed })) := by
  have hlen : a.demand.length = a.config.numTicks := by simp [SealedBidAuction.demand]
  have hfind (r : Result) : findClearingTick a.demand a.config.totalSupply = .ok r ↔
      demandFrom (book a.config a.bids) (clearsAt a.config a.bids) < 2 ^ 256 ∧
        r = clearingFor a.config a.bids := by
    have := findClearingTick_eq_ok h.buckets (by rw [hlen]; exact h.accepted.ticks_pos)
      (by rw [hlen]; exact h.accepted.ticks_le) h.accepted.supply_pos (r := r)
    rwa [hlen] at this
  have hnone : (clearingFor a.config a.bids).cleared = false ↔
      demandFrom (book a.config a.bids) 0 = 0 := by
    have hcleared : (clearingFor a.config a.bids).cleared = true ↔
        demandFrom (book a.config a.bids) 0 ≠ 0 := clearingOf_cleared
    rw [← Bool.not_eq_true, hcleared, not_not]
  rw [SealedBidAuction.finalize_eq_ok]
  constructor
  · rintro ⟨hs, hw, hp, r, hr, hcase⟩
    obtain ⟨hfit, rfl⟩ := (hfind r).mp hr
    refine ⟨hs, hw, hp, hfit, ?_⟩
    rcases hcase with ⟨hc, hset⟩ | ⟨hc, ha⟩
    · exact Or.inl ⟨fun hz => by rw [hnone.mpr hz] at hc; exact absurd hc (by decide), hset⟩
    · exact Or.inr ⟨hnone.mp hc, ha⟩
  · rintro ⟨hs, hw, hp, hfit, hcase⟩
    refine ⟨hs, hw, hp, _, (hfind _).mpr ⟨hfit, rfl⟩, ?_⟩
    rcases hcase with ⟨hc, hset⟩ | ⟨hc, ha⟩
    · exact Or.inl ⟨by rw [← Bool.not_eq_false, hnone]; exact hc, hset⟩
    · exact Or.inr ⟨hnone.mpr hc, ha⟩

/-- What `finalize` leaves behind when it settles. -/
structure SettledWell (a : SealedBidAuction) : Prop where
  revealed : ∀ b ∈ a.bids, b.revealed = true
  demanded : demandFrom (book a.config a.bids) 0 ≠ 0
  fits : demandFrom (book a.config a.bids) (clearsAt a.config a.bids) < 2 ^ 256
  arithmetic : SettlementFits a.config a.clearing
  clearing : a.clearing = clearingFor a.config a.bids
  price : a.clearingPrice = priceOf a.config a.clearing
  gross : a.grossProceeds = grossOf a.config a.clearing
  fee : a.protocolFee = feeOf a.config a.clearing

lemma Tallied.all_revealed (h : Tallied a) (hp : a.processedBidCount = a.bids.length) :
    ∀ b ∈ a.bids, b.revealed = true := by
  rw [h.processed] at hp
  exact List.countP_eq_length.mp hp

lemma Tallied.settledWell (h : Tallied a) (hp : a.processedBidCount = a.bids.length)
    (hfit : demandFrom (book a.config a.bids) (clearsAt a.config a.bids) < 2 ^ 256)
    (hsome : demandFrom (book a.config a.bids) 0 ≠ 0)
    (harith : SettlementFits a.config (clearingFor a.config a.bids)) :
    SettledWell (a.afterSettle (clearingFor a.config a.bids)) :=
  ⟨h.all_revealed hp, hsome, hfit, harith, rfl, rfl, rfl, rfl⟩

/-- The price every winner pays, from the book alone. -/
def priceFor (cfg : Config) (bids : List Bid) : Nat :=
  cfg.reservePrice + clearsAt cfg bids * cfg.tickSize

lemma priceOf_clearingFor {cfg : Config} {bids : List Bid} (hsome : demandFrom (book cfg bids) 0 ≠ 0) :
    priceOf cfg (clearingFor cfg bids) = priceFor cfg bids := by
  unfold priceOf priceFor clearingFor clearsAt
  rw [clearingOf_tick hsome]

lemma grossOf_clearingFor {cfg : Config} (hcfg : Accepted cfg) {bids : List Bid}
    (hsome : demandFrom (book cfg bids) 0 ≠ 0) :
    grossOf cfg (clearingFor cfg bids) =
      sold (book cfg bids) cfg.totalSupply * priceFor cfg bids / 10 ^ cfg.saleDecimals := by
  unfold grossOf
  rw [priceOf_clearingFor hsome]
  unfold clearingFor
  rw [clearingOf_sold hcfg.supply_pos hsome]

lemma allotted_le_quantity (cfg : Config) (bids : List Bid) (b : Bid) :
    allotted cfg bids b ≤ b.quantity := by
  unfold allotted
  split_ifs with hc
  · exact fill_le_quantity _ _ _ ⟨b.quantity, b.tick⟩
  · exact Nat.zero_le _

lemma charge_le_needed {cfg : Config} (bids : List Bid) {b : Bid} (hc : counts cfg b = true) :
    ∃ needed, needed ≤ b.escrow ∧ needed < 2 ^ 256 ∧
      allotted cfg bids b * priceFor cfg bids / 10 ^ cfg.saleDecimals ≤ needed := by
  obtain ⟨-, -, hel⟩ := counts_iff.mp hc
  obtain ⟨needed, hneeded, hle⟩ := isEligible_true hel
  obtain ⟨-, -, hlt, heq⟩ := escrowFor_eq_ok.mp hneeded
  refine ⟨needed, hle, by omega, ?_⟩
  by_cases hbelow : b.tick < clearsAt cfg bids
  · have hzero : allotted cfg bids b = 0 := by
      unfold allotted
      rw [if_pos hc]
      exact fill_below _ _ _ hbelow
    rw [hzero, Nat.zero_mul, Nat.zero_div]
    exact Nat.zero_le _
  · have hprice : priceFor cfg bids ≤ cfg.reservePrice + b.tick * cfg.tickSize := by
      unfold priceFor
      have := Nat.mul_le_mul_right cfg.tickSize (Nat.le_of_not_lt hbelow)
      omega
    rw [← heq]
    exact floor_le_ceil_cost (allotted_le_quantity cfg bids b) hprice (by positivity)

lemma charge_fits (cfg : Config) (bids : List Bid) (b : Bid) :
    allotted cfg bids b * priceFor cfg bids / 10 ^ cfg.saleDecimals < 2 ^ 256 ∧
      allotted cfg bids b * priceFor cfg bids / 10 ^ cfg.saleDecimals ≤ b.escrow := by
  by_cases hc : counts cfg b
  · obtain ⟨needed, hle, hlt, hcharge⟩ := charge_le_needed bids hc
    exact ⟨by omega, by omega⟩
  · have hzero : allotted cfg bids b = 0 := by
      unfold allotted
      rw [if_neg hc]
    rw [hzero, Nat.zero_mul, Nat.zero_div]
    exact ⟨by positivity, Nat.zero_le _⟩

lemma Tallied.allocationOf_eq (h : Tallied a) (hw : SettledWell a) (hs : a.state = .settled) {b : Bid}
    (hb : b ∈ a.bids) : a.allocationOf b = .ok (allotted a.config a.bids b) := by
  have hr := hw.revealed b hb
  unfold allocationOf
  by_cases hv : b.voided = true
  · have hc : counts a.config b = false := by
      unfold counts
      rw [hv]
      simp
    rw [if_pos (Or.inr (Or.inr hv))]
    unfold allotted
    rw [hc]
    rfl
  · obtain ⟨ht, eligible, hel⟩ := h.checked b hb hr (by simpa using hv)
    rw [if_neg (by simp [hs, hr, hv]), hel]
    have hc : counts a.config b = eligible := by
      unfold counts
      rw [hel, hr, Bool.eq_false_iff.mpr hv]
      cases eligible <;> rfl
    unfold allotted
    rw [hc]
    cases eligible with
    | true =>
      have ho : (⟨b.quantity, b.tick⟩ : Order) ∈ book a.config a.bids := mem_book.mpr ⟨b, hb, hc, rfl⟩
      change allocationFor a.clearing b.quantity b.tick = _
      rw [hw.clearing]
      exact allocationFor_eq_fill h.accepted.supply_pos hw.demanded hw.fits ho
    | false => rfl

lemma Tallied.claimAmounts_eq (h : Tallied a) (hw : SettledWell a) (hs : a.state = .settled) {b : Bid}
    (hb : b ∈ a.bids) : a.claimAmounts b = .ok (allotted a.config a.bids b,
      b.escrow - allotted a.config a.bids b * priceFor a.config a.bids / 10 ^ a.config.saleDecimals) := by
  have hprice : a.clearingPrice = priceFor a.config a.bids := by
    rw [hw.price, hw.clearing, priceOf_clearingFor hw.demanded]
  obtain ⟨hfit, hle⟩ := charge_fits a.config a.bids b
  unfold claimAmounts
  rw [if_pos hs]
  simp only [bind_eq_ok, h.allocationOf_eq hw hs hb, hprice, costFloor_eq_ok, checkedSub_eq_ok,
    Except.ok.injEq, Prod.mk.injEq]
  exact ⟨_, rfl, _, ⟨hw.arithmetic.unit, hfit, rfl⟩, _, ⟨hle, rfl⟩, rfl, rfl⟩

end Clearing

/-! ### Sums over the bids and over the book -/

section Totals

variable (cfg : Config) (bids : List Bid)

lemma sum_book_eq (f : Order → Nat) : ((book cfg bids).map f).sum =
    (bids.map (fun b => if counts cfg b then f ⟨b.quantity, b.tick⟩ else 0)).sum := by
  induction bids with
  | nil => rfl
  | cons b bids ih =>
    rw [List.map_cons, List.sum_cons, ← ih]
    unfold book
    rw [List.filterMap_cons]
    unfold standing
    by_cases hc : counts cfg b
    · simp [hc]
    · simp [hc]

lemma sum_allotted : (bids.map (allotted cfg bids)).sum = (winnings cfg bids).sum :=
  (sum_book_eq cfg bids _).symm

lemma sum_charges (price unit : Nat) :
    (bids.map (fun b => allotted cfg bids b * price / unit)).sum =
      charges price unit (winnings cfg bids) := by
  unfold charges winnings
  rw [List.map_map, sum_book_eq]
  congr 1
  apply List.map_congr_left
  intro b hb
  unfold allotted
  by_cases hc : counts cfg b
  · simp [hc]
  · simp [hc]

end Totals

lemma Tallied.winnings_le_sold {a : SealedBidAuction} (h : Tallied a) :
    (winnings a.config a.bids).sum ≤ sold (book a.config a.bids) a.config.totalSupply :=
  sum_fill_le_sold _ _ _ (fun _ ho => h.tick_lt ho) h.accepted.supply_pos

end Peal.Auction
