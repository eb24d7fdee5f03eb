import Peal.Auction.QuoteSolvency

namespace Peal.Auction
open Peal.Fallible Peal.UniformPrice Peal.Runs SealedBidAuction

/-! # The off-chain preview of a settlement

The client mirrors the clearing on unbounded integers and rebuilds the demand from the bids it reads. Its
demand counts every revealed bid, the contract's only the eligible ones. -/

namespace Preview

inductive RangeError where
  | badTickCount
  | zeroSupply
  deriving DecidableEq, Repr

/-- The loop from the highest tick down; the ticks below `i` are still to scan. -/
def scanTicks (demandByTick : List Nat) (supply : Nat) : Nat → Nat → Result ⊕ Nat
  | 0, cumulative => .inr cumulative
  | tick + 1, cumulativeBefore =>
    let demandHere := demandByTick.getD tick 0
    let cumulative := cumulativeBefore + demandHere
    if supply ≤ cumulative then .inl ⟨true, tick, supply, demandHere, supply - cumulativeBefore⟩
    else scanTicks demandByTick supply tick cumulative

def findClearingTick (demandByTick : List Nat) (supply : Nat) : Except RangeError Result := do
  let numTicks := demandByTick.length
  require (¬(numTicks = 0 ∨ maxTicks < numTicks)) .badTickCount
  require (0 < supply) .zeroSupply
  match scanTicks demandByTick supply numTicks 0 with
  | .inl result => .ok result
  | .inr cumulative =>
    if cumulative = 0 then .ok ⟨false, 0, 0, 0, 0⟩
    else
      let atReserve := demandByTick.getD 0 0
      .ok ⟨true, 0, cumulative, atReserve, atReserve⟩

def allocationFor (result : Result) (bidQuantity bidTick : Nat) : Nat :=
  if result.cleared = false then 0
  else if bidTick < result.clearingTick then 0
  else if result.clearingTick < bidTick then bidQuantity
  else if result.demandAtClearingTick ≤ result.supplyForClearingTick then bidQuantity
  else bidQuantity * result.supplyForClearingTick / result.demandAtClearingTick

def priceAt (reservePrice tickSize tick : Nat) : Nat := reservePrice + tick * tickSize

def costFloor (quantity price saleDecimals : Nat) : Nat := quantity * price / 10 ^ saleDecimals

def escrowFor (quantity reservePrice tickSize maxTick saleDecimals : Nat) : Nat :=
  let price := priceAt reservePrice tickSize maxTick
  let denom := 10 ^ saleDecimals
  let n := quantity * price
  if n = 0 then 0 else (n + denom - 1) / denom

/-- A bid the client shows: revealed and not voided. -/
def shown (b : Bid) : Bool := b.revealed && !b.voided

def addDemand (numTicks : Nat) (demand : List Nat) (b : Bid) : List Nat :=
  if shown b && decide (b.tick < numTicks) then demand.modify b.tick (· + b.quantity) else demand

/-- Demand per tick, from revealed bids only; nothing while any bid is still sealed. -/
def demandFromBids (bids : List Bid) (numTicks : Nat) : Option (List Nat) :=
  if bids = [] ∨ bids.any (fun b => !b.revealed && !b.voided) then none
  else some (bids.foldl (addDemand numTicks) (List.replicate numTicks 0))

end Preview

/-! ### The arithmetic agrees where the contract's does not overflow -/

/-- The contract's result is the preview's, unless the contract overflows. -/
def AgreesUnlessOverflow {ε α : Type} (onchain : Except Revert α) (preview : Except ε α) : Prop :=
  onchain ≠ .error (.panic 0x11) → onchain.toOption = preview.toOption

lemma uint256_cases (n : Nat) : uint256 n = .error (.panic 0x11) ∨ uint256 n = .ok n := by
  unfold uint256 checked
  split_ifs
  · exact Or.inr rfl
  · exact Or.inl rfl

lemma scanTicks_cases (demand : List Nat) (supply i cumulative : Nat) :
    scanTicks demand supply i cumulative = .error (.panic 0x11) ∨
      scanTicks demand supply i cumulative = .ok (Preview.scanTicks demand supply i cumulative) := by
  induction i generalizing cumulative with
  | zero => exact Or.inr rfl
  | succ tick ih =>
    unfold scanTicks Preview.scanTicks
    rcases uint256_cases (cumulative + demand.getD tick 0) with hover | hsum
    · simp only [hover, bind, Except.bind, true_or]
    · simp only [hsum, bind, Except.bind]
      split_ifs
      · exact Or.inr rfl
      · exact ih _

theorem findClearingTick_agrees (demand : List Nat) (supply : Nat) :
    AgreesUnlessOverflow (findClearingTick demand supply) (Preview.findClearingTick demand supply) := by
  intro h
  unfold findClearingTick at h ⊢
  unfold Preview.findClearingTick
  by_cases hticks : 0 < demand.length ∧ demand.length ≤ maxTicks
  · have hticks' : ¬(demand.length = 0 ∨ maxTicks < demand.length) := by omega
    by_cases hsupply : 0 < supply
    · simp only [require, if_pos hticks, if_pos hticks', if_pos hsupply, bind, Except.bind] at h ⊢
      rcases scanTicks_cases demand supply demand.length 0 with hover | hscan
      · rw [hover] at h
        exact absurd rfl h
      · rw [hscan]
        cases Preview.scanTicks demand supply demand.length 0 with
        | inl result => rfl
        | inr cumulative =>
          dsimp only
          split_ifs
          · rfl
          · rfl
    · simp only [require, if_pos hticks, if_pos hticks', if_neg hsupply, bind, Except.bind]
      rfl
  · have hticks' : ¬¬(demand.length = 0 ∨ maxTicks < demand.length) := by omega
    simp only [require, if_neg hticks, if_neg hticks', bind, Except.bind]
    rfl

lemma mulDiv_floor_agrees (x y d : Nat) (hd : d ≠ 0) :
    AgreesUnlessOverflow (mulDiv x y d .floor) (.ok (x * y / d) : Except Preview.RangeError Nat) := by
  intro h
  unfold mulDiv at h ⊢
  rw [require, if_pos hd] at h ⊢
  rcases uint256_cases (x * y / d) with hover | hfit
  · simp only [bind, Except.bind, hover, ne_eq, not_true_eq_false] at h
  · simp only [bind, Except.bind, hfit]
    rfl

theorem allocationFor_agrees (r : Result) (bidQuantity bidTick : Nat) :
    AgreesUnlessOverflow (allocationFor r bidQuantity bidTick)
      (.ok (Preview.allocationFor r bidQuantity bidTick) : Except Preview.RangeError Nat) := by
  intro h
  unfold allocationFor at h ⊢
  unfold Preview.allocationFor
  split_ifs at h ⊢ with hcleared hbelow habove hroom
  · rfl
  · rfl
  · rfl
  · rfl
  · exact mulDiv_floor_agrees _ _ _ (by omega) h

theorem costFloor_agrees (quantity price saleDecimals : Nat) :
    AgreesUnlessOverflow (costFloor quantity price saleDecimals)
      (.ok (Preview.costFloor quantity price saleDecimals) : Except Preview.RangeError Nat) := by
  intro h
  unfold costFloor wholeToken at h ⊢
  rcases uint256_cases (10 ^ saleDecimals) with hover | hunit
  · rw [hover] at h
    exact absurd rfl h
  · rw [hunit] at h ⊢
    exact mulDiv_floor_agrees _ _ _ (by positivity) h

lemma escrowFor_value (quantity reservePrice tickSize maxTick saleDecimals : Nat) :
    Preview.escrowFor quantity reservePrice tickSize maxTick saleDecimals =
      (quantity * (reservePrice + maxTick * tickSize) + 10 ^ saleDecimals - 1) / 10 ^ saleDecimals := by
  unfold Preview.escrowFor Preview.priceAt
  have hunit : 0 < 10 ^ saleDecimals := by positivity
  dsimp only
  split_ifs with hzero
  · rw [hzero, Nat.zero_add, Nat.div_eq_of_lt (by omega)]
  · rfl

lemma mulDiv_ceil_cases (x y d : Nat) (hd : 0 < d) :
    mulDiv x y d .ceil = .error (.panic 0x11) ∨ mulDiv x y d .ceil = .ok ((x * y + d - 1) / d) := by
  by_cases hfit : (x * y + d - 1) / d < 2 ^ 256
  · exact Or.inr (mulDiv_ceil_eq_ok.mpr ⟨by omega, hfit, rfl⟩)
  · have hstep := ceil_step (x * y) d hd
    unfold mulDiv
    rw [require, if_pos (by omega)]
    rcases uint256_cases (x * y / d) with hover | hquot
    · simp [hover, bind, Except.bind]
    · simp only [hquot, bind, Except.bind]
      rw [hstep]
      exact Or.inl (if_neg hfit)

theorem escrowFor_agrees (quantity reservePrice tickSize maxTick saleDecimals : Nat) :
    AgreesUnlessOverflow (escrowFor quantity reservePrice tickSize maxTick saleDecimals)
      (.ok (Preview.escrowFor quantity reservePrice tickSize maxTick saleDecimals) : Except Preview.RangeError Nat) := by
  intro h
  rw [escrowFor_value]
  unfold escrowFor priceAt costCeil wholeToken at h ⊢
  rcases uint256_cases (maxTick * tickSize) with hover | hproduct
  · simp [hover, bind, Except.bind] at h
  rcases uint256_cases (reservePrice + maxTick * tickSize) with hover | hprice
  · simp [hproduct, hover, bind, Except.bind] at h
  rcases uint256_cases (10 ^ saleDecimals) with hover | hunit
  · simp [hproduct, hprice, hover, bind, Except.bind] at h
  simp only [hproduct, hprice, hunit, bind, Except.bind] at h ⊢
  rcases mulDiv_ceil_cases quantity (reservePrice + maxTick * tickSize) (10 ^ saleDecimals) (by positivity) with
    hover | hceil
  · exact absurd hover h
  · rw [hceil]
    rfl

/-! ### The demand agrees where every revealed bid counts -/

section Demand

/-- Every revealed quantity was found eligible. -/
def AllEligible (cfg : Config) (bids : List Bid) : Prop :=
  ∀ b ∈ bids, b.revealed = true → b.voided = false → 0 < b.quantity →
    isEligible cfg b b.quantity b.tick = .ok true

/-- What a bid adds to the demand at a tick in the client's sum. -/
def shownAt (t : Nat) (b : Bid) : Nat := if Preview.shown b = true ∧ b.tick = t then b.quantity else 0

/-- What it adds in the contract's. -/
def countedAt (cfg : Config) (t : Nat) (b : Bid) : Nat := if counts cfg b = true ∧ b.tick = t then b.quantity else 0

lemma shown_iff {b : Bid} : Preview.shown b = true ↔ b.revealed = true ∧ b.voided = false := by
  simp [Preview.shown]

lemma shown_of_counts {cfg : Config} {b : Bid} (h : counts cfg b = true) : Preview.shown b = true := by
  obtain ⟨hr, hv, -⟩ := counts_iff.mp h
  exact shown_iff.mpr ⟨hr, hv⟩

lemma demandAt_book (cfg : Config) (bids : List Bid) (t : Nat) :
    demandAt (book cfg bids) t = (bids.map (countedAt cfg t)).sum := by
  induction bids with
  | nil => rfl
  | cons b bids ih =>
    rw [List.map_cons, List.sum_cons, ← ih]
    unfold book demandAt countedAt
    rw [List.filterMap_cons]
    unfold standing
    by_cases hc : counts cfg b = true
    · simp only [hc, if_true, quantityWhere_cons, beq_iff_eq, true_and]
    · simp only [hc, Bool.false_eq_true, if_false, false_and, Nat.zero_add]

lemma addDemand_length (numTicks : Nat) (demand : List Nat) (b : Bid) :
    (Preview.addDemand numTicks demand b).length = demand.length := by
  unfold Preview.addDemand
  split_ifs
  · exact List.length_modify _ _ _
  · rfl

lemma addDemand_getD {numTicks : Nat} {demand : List Nat} (hlen : demand.length = numTicks) {b : Bid}
    (htick : Preview.shown b = true → b.tick < numTicks) (t : Nat) :
    (Preview.addDemand numTicks demand b).getD t 0 = demand.getD t 0 + shownAt t b := by
  unfold Preview.addDemand shownAt
  by_cases hshown : Preview.shown b = true
  · have hlt : b.tick < demand.length := hlen ▸ htick hshown
    rw [hshown, Bool.true_and, if_pos (by simpa [hlen] using hlt)]
    by_cases ht : b.tick = t
    · rw [← ht]
      simp [hlt]
    · simp [ht]
  · simp [hshown]

lemma foldl_addDemand {numTicks : Nat} {bids : List Bid}
    (htick : ∀ b ∈ bids, Preview.shown b = true → b.tick < numTicks) {demand : List Nat}
    (hlen : demand.length = numTicks) :
    (bids.foldl (Preview.addDemand numTicks) demand).length = numTicks ∧
      ∀ t, (bids.foldl (Preview.addDemand numTicks) demand).getD t 0 =
        demand.getD t 0 + (bids.map (shownAt t)).sum := by
  induction bids generalizing demand with
  | nil => exact ⟨hlen, fun t => rfl⟩
  | cons b bids ih =>
    have hrest := ih (fun b' hb' => htick b' (List.mem_cons_of_mem b hb'))
      ((addDemand_length numTicks demand b).trans hlen)
    refine ⟨hrest.1, fun t => ?_⟩
    rw [List.foldl_cons, hrest.2 t, addDemand_getD hlen (htick b List.mem_cons_self), List.map_cons, List.sum_cons,
      Nat.add_assoc]

lemma countedAt_le (cfg : Config) (t : Nat) (b : Bid) : countedAt cfg t b ≤ shownAt t b := by
  unfold countedAt shownAt
  by_cases hc : counts cfg b = true
  · simp [hc, shown_of_counts hc]
  · simp [hc]

lemma countedAt_eq_iff (cfg : Config) (b : Bid) :
    (∀ t, countedAt cfg t b = shownAt t b) ↔
      (b.revealed = true → b.voided = false → 0 < b.quantity → isEligible cfg b b.quantity b.tick = .ok true) := by
  constructor
  · intro h hr hv hq
    have hshown : Preview.shown b = true := shown_iff.mpr ⟨hr, hv⟩
    have ht := h b.tick
    by_contra hel
    have hc : ¬counts cfg b = true := fun hc => hel (counts_iff.mp hc).2.2
    unfold countedAt shownAt at ht
    rw [if_neg (fun hcount => hc hcount.1), if_pos ⟨hshown, rfl⟩] at ht
    omega
  · intro h t
    unfold countedAt shownAt
    by_cases hshown : Preview.shown b = true
    · obtain ⟨hr, hv⟩ := shown_iff.mp hshown
      rcases Nat.eq_zero_or_pos b.quantity with hzero | hpos
      · simp [hzero]
      · have hc : counts cfg b = true := counts_iff.mpr ⟨hr, hv, h hr hv hpos⟩
        simp [hc, hshown]
    · have hc : ¬counts cfg b = true := fun hc => hshown (shown_of_counts hc)
      simp [hc, hshown]

lemma sum_eq_iff {bids : List Bid} {f g : Bid → Nat} (hle : ∀ b, f b ≤ g b) :
    (bids.map f).sum = (bids.map g).sum ↔ ∀ b ∈ bids, f b = g b := by
  induction bids with
  | nil => simp
  | cons b bids ih =>
    have hrest : (bids.map f).sum ≤ (bids.map g).sum := List.sum_le_sum fun b _ => hle b
    have hb := hle b
    rw [List.map_cons, List.map_cons, List.sum_cons, List.sum_cons, List.forall_mem_cons, ← ih]
    omega

lemma demand_eq_iff (cfg : Config) (bids : List Bid) :
    (∀ t, (bids.map (shownAt t)).sum = demandAt (book cfg bids) t) ↔ AllEligible cfg bids := by
  have hterms (t : Nat) : (bids.map (shownAt t)).sum = demandAt (book cfg bids) t ↔
      ∀ b ∈ bids, countedAt cfg t b = shownAt t b := by
    rw [demandAt_book, eq_comm]
    exact sum_eq_iff (countedAt_le cfg t)
  constructor
  · intro h b hb
    exact (countedAt_eq_iff cfg b).mp fun t => (hterms t).mp (h t) b hb
  · intro h t
    exact (hterms t).mpr fun b hb => (countedAt_eq_iff cfg b).mpr (h b hb) t

variable {a : SealedBidAuction}

lemma shownAt_beyond (h : Tallied a) {t : Nat} (ht : a.config.numTicks ≤ t) :
    (a.bids.map (shownAt t)).sum = 0 := by
  apply List.sum_eq_zero
  intro n hn
  obtain ⟨b, hb, rfl⟩ := List.mem_map.mp hn
  unfold shownAt
  rw [if_neg]
  rintro ⟨hshown, rfl⟩
  obtain ⟨hr, hv⟩ := shown_iff.mp hshown
  have := (h.checked b hb hr hv).1
  omega

lemma demand_getD (h : Tallied a) (t : Nat) : a.demand.getD t 0 = demandAt (book a.config a.bids) t := by
  unfold SealedBidAuction.demand
  by_cases ht : t < a.config.numTicks
  · rw [← h.demand t]
    simp [ht]
  · have hle : (a.bids.map (countedAt a.config t)).sum ≤ (a.bids.map (shownAt t)).sum :=
      List.sum_le_sum fun b _ => countedAt_le a.config t b
    rw [shownAt_beyond h (Nat.le_of_not_lt ht)] at hle
    rw [demandAt_book, Nat.le_zero.mp hle]
    simp [ht]

lemma eq_of_getD_eq {xs ys : List Nat} (hlen : xs.length = ys.length) (h : ∀ t, xs.getD t 0 = ys.getD t 0) :
    xs = ys := by
  apply List.ext_getElem hlen
  intro t ht ht'
  simpa [List.getD, ht, ht'] using h t

/-- Once every bid is processed, the client's demand is the contract's exactly when every revealed quantity
is eligible. -/
theorem demandFromBids_iff (h : Tallied a) (hall : ∀ b ∈ a.bids, b.revealed = true) :
    Preview.demandFromBids a.bids a.config.numTicks = some a.demand ↔
      a.bids ≠ [] ∧ AllEligible a.config a.bids := by
  have hnone : a.bids.any (fun b => !b.revealed && !b.voided) = false := by
    rw [List.any_eq_false]
    intro b hb
    simp [hall b hb]
  have htick : ∀ b ∈ a.bids, Preview.shown b = true → b.tick < a.config.numTicks := by
    intro b hb hshown
    obtain ⟨hr, hv⟩ := shown_iff.mp hshown
    exact (h.checked b hb hr hv).1
  obtain ⟨hlen, hsum⟩ := foldl_addDemand htick (List.length_replicate (n := a.config.numTicks) (a := 0))
  have hzero (t : Nat) : (List.replicate a.config.numTicks 0).getD t 0 = 0 := by
    by_cases ht : t < a.config.numTicks <;> simp [List.getD, ht]
  simp only [hzero, Nat.zero_add] at hsum
  have hlen' : a.demand.length = a.config.numTicks := by simp [SealedBidAuction.demand]
  unfold Preview.demandFromBids
  rw [hnone]
  by_cases hempty : a.bids = []
  · simp [hempty]
  · rw [if_neg (by simp [hempty]), Option.some.injEq, ← demand_eq_iff]
    constructor
    · intro heq
      refine ⟨hempty, fun t => ?_⟩
      rw [← hsum t, heq, demand_getD h]
    · rintro ⟨-, heq⟩
      apply eq_of_getD_eq (hlen.trans hlen'.symm)
      intro t
      rw [hsum t, heq t, demand_getD h]

end Demand

/-! ### What settles is what was previewed -/

section Settled

variable {a : SealedBidAuction}

lemma toOption_ok {ε ε' α : Type} {x : Except ε α} {y : Except ε' α} {v : α} (h : x.toOption = y.toOption)
    (hx : x = .ok v) : y = .ok v := by
  rw [hx] at h
  exact toOption_eq_some.mp h.symm

lemma AgreesUnlessOverflow.ok {ε α : Type} {x : Except Revert α} {y : Except ε α} (h : AgreesUnlessOverflow x y)
    {v : α} (hx : x = .ok v) : y = .ok v :=
  toOption_ok (h (by rw [hx]; exact fun heq => nomatch heq)) hx

lemma allocationFor_zero (r : Result) (tick : Nat) : Preview.allocationFor r 0 tick = 0 := by
  unfold Preview.allocationFor
  split_ifs
  all_goals first
    | rfl
    | rw [Nat.zero_mul, Nat.zero_div]

/-- A settled auction holds the previewed clearing and pays the previewed amounts. -/
structure PreviewHolds (a : SealedBidAuction) : Prop where
  clearing : Preview.findClearingTick a.demand a.config.totalSupply = .ok a.clearing
  price : a.clearingPrice = Preview.priceAt a.config.reservePrice a.config.tickSize a.clearing.clearingTick
  claims : ∀ b ∈ a.bids, b.voided = false →
    a.claimAmounts b = .ok (Preview.allocationFor a.clearing b.quantity b.tick,
      b.escrow - Preview.costFloor (Preview.allocationFor a.clearing b.quantity b.tick) a.clearingPrice
        a.config.saleDecimals)

lemma previewHolds_of_settled (h : Tallied a) (hw : SettledWell a) (hs : a.state = .settled)
    (hall : AllEligible a.config a.bids) : PreviewHolds a := by
  have hlen : a.demand.length = a.config.numTicks := by simp [SealedBidAuction.demand]
  have hclear : findClearingTick a.demand a.config.totalSupply = .ok a.clearing := by
    have hfind := findClearingTick_eq_ok h.buckets (by rw [hlen]; exact h.accepted.ticks_pos)
      (by rw [hlen]; exact h.accepted.ticks_le) h.accepted.supply_pos (r := a.clearing)
    rw [hlen] at hfind
    exact hfind.mpr ⟨hw.fits, hw.clearing⟩
  have hprice : a.clearingPrice = priceFor a.config a.bids := by
    rw [hw.price, hw.clearing, priceOf_clearingFor hw.demanded]
  refine ⟨(findClearingTick_agrees _ _).ok hclear, ?_, fun b hb hv => ?_⟩
  · rw [hw.price]
    rfl
  · have hallot : allotted a.config a.bids b = Preview.allocationFor a.clearing b.quantity b.tick := by
      by_cases hc : counts a.config b = true
      · have ho : (⟨b.quantity, b.tick⟩ : Order) ∈ book a.config a.bids := mem_book.mpr ⟨b, hb, hc, rfl⟩
        have hfill := allocationFor_eq_fill h.accepted.supply_pos hw.demanded hw.fits ho
        have hpreview := (allocationFor_agrees _ _ _).ok hfill
        unfold allotted
        rw [if_pos hc, hw.clearing]
        exact (Except.ok.inj hpreview).symm
      · have hzero : b.quantity = 0 := by
          by_contra hq
          exact hc (counts_iff.mpr ⟨hw.revealed b hb, hv, hall b hb (hw.revealed b hb) hv (Nat.pos_of_ne_zero hq)⟩)
        unfold allotted
        rw [if_neg hc, hzero, allocationFor_zero]
    rw [h.claimAmounts_eq hw hs hb, hallot, hprice]
    rfl

end Settled

/-- In every reachable auction whose bids are all processed, the client's demand is the contract's exactly when
every revealed quantity is eligible; then a settled auction holds what the client previews. The arithmetic
agrees on every input on which the contract does not overflow. -/
theorem preview_agrees (env : Env) {registry : CommitteeRegistry} {cfg : Config} {a : SealedBidAuction}
    (ha : initializeAuction registry cfg = .ok a) (sale quote : ERC20) (calls : List (Msg env × Call)) :
    (∀ demand supply, AgreesUnlessOverflow (findClearingTick demand supply) (Preview.findClearingTick demand supply)) ∧
    (∀ r bidQuantity bidTick, AgreesUnlessOverflow (allocationFor r bidQuantity bidTick)
      (.ok (Preview.allocationFor r bidQuantity bidTick) : Except Preview.RangeError Nat)) ∧
    (∀ quantity price saleDecimals, AgreesUnlessOverflow (costFloor quantity price saleDecimals)
      (.ok (Preview.costFloor quantity price saleDecimals) : Except Preview.RangeError Nat)) ∧
    (∀ quantity reservePrice tickSize maxTick saleDecimals,
      AgreesUnlessOverflow (escrowFor quantity reservePrice tickSize maxTick saleDecimals)
        (.ok (Preview.escrowFor quantity reservePrice tickSize maxTick saleDecimals) :
          Except Preview.RangeError Nat)) ∧
    ∀ settled, settled = (exec (step env) ⟨a, registry, sale, quote⟩ calls).auction →
      settled.processedBidCount = settled.committedBidCount →
        (Preview.demandFromBids settled.bids settled.config.numTicks = some settled.demand ↔
          settled.bids ≠ [] ∧ AllEligible settled.config settled.bids) ∧
        (settled.state = .settled → AllEligible settled.config settled.bids → PreviewHolds settled) := by
  refine ⟨findClearingTick_agrees, allocationFor_agrees, costFloor_agrees, escrowFor_agrees, ?_⟩
  rintro settled rfl hprocessed
  have hinv : Invariant env (exec (step env) ⟨a, registry, sale, quote⟩ calls) :=
    exec_invariant (step env) (fun w c w' hw hstep => step_invariant hw hstep) (invariant_initial ha sale quote).1 calls
  have hall := hinv.tallied.all_revealed hprocessed
  exact ⟨demandFromBids_iff hinv.tallied hall,
    fun hs heligible => previewHolds_of_settled hinv.tallied (hinv.staged.settled hs) hs heligible⟩

/-! ### An undersized bid in the preview -/

/-- Two units for sale, and no bid for less than two counts. -/
def undersizedConfig : Config := { sampleConfig with minBidQuantity := 2 }

def undersizedAuction : SealedBidAuction := { sampleAuction with config := undersizedConfig }

def undersizedLeaf (bidId : Nat) : Nat := revealLeaf sampleEnv bidId (bidId + 1) 0 bidId

def undersizedTree : Peal.SortedPairTree.HashTree := .node (.leaf (undersizedLeaf 0)) (.leaf (undersizedLeaf 1))

/-- A bid for one unit and a bid for two, revealed and settled. -/
def undersizedCalls : List (Msg sampleEnv × Call) :=
  [(sampleMsg 20 1 seller_sender, .fund), (sampleMsg 20 10 seller_sender, .openCommit),
    (sampleMsg 40 11 bidder_sender, .commitBid (bidCommitment sampleEnv 40 1 0 0 1) 1 1 []),
    (sampleMsg 41 12 otherBidder_sender, .commitBid (bidCommitment sampleEnv 41 2 0 1 1) 1 1 []),
    (sampleRelay 20, .closeCommit),
    (sampleRelay 21, .registerRevealRoot (undersizedTree.root Peal.SortedPairTree.pairingHash) 2 [[7]]),
    (sampleRelay 22, .processReveals [⟨0, 1, 0, 0, 1, [undersizedLeaf 1]⟩, ⟨1, 2, 0, 1, 1, [undersizedLeaf 0]⟩]),
    (sampleRelay 23, .finalize)]

def undersizedWorld : World := ⟨undersizedAuction, sampleRegistry, sampleToken, sampleToken⟩

def undersizedSettled : SealedBidAuction := (exec (step sampleEnv) undersizedWorld undersizedCalls).auction

/-- The contract leaves the small bid out and fills the other; the preview counts three units and gives the
same bid one. -/
theorem preview_counts_ineligible :
    initializeAuction sampleRegistry undersizedConfig = .ok undersizedAuction ∧
      undersizedSettled.state = .settled ∧
      undersizedSettled.processedBidCount = undersizedSettled.committedBidCount ∧
      undersizedSettled.demand = [2] ∧
      Preview.demandFromBids undersizedSettled.bids undersizedSettled.config.numTicks = some [3] ∧
      undersizedSettled.allocationOf (undersizedSettled.bid 1) = .ok 2 ∧
      (Preview.findClearingTick [3] undersizedSettled.config.totalSupply).toOption.map
        (fun r => Preview.allocationFor r 2 0) = some 1 := by
  refine ⟨rfl, ?_, ?_, ?_, ?_, ?_, ?_⟩
  all_goals decide +kernel

theorem preview_agrees_sample :
    (∀ demand supply, AgreesUnlessOverflow (findClearingTick demand supply) (Preview.findClearingTick demand supply)) ∧
    (∀ r bidQuantity bidTick, AgreesUnlessOverflow (allocationFor r bidQuantity bidTick)
      (.ok (Preview.allocationFor r bidQuantity bidTick) : Except Preview.RangeError Nat)) ∧
    (∀ quantity price saleDecimals, AgreesUnlessOverflow (costFloor quantity price saleDecimals)
      (.ok (Preview.costFloor quantity price saleDecimals) : Except Preview.RangeError Nat)) ∧
    (∀ quantity reservePrice tickSize maxTick saleDecimals,
      AgreesUnlessOverflow (escrowFor quantity reservePrice tickSize maxTick saleDecimals)
        (.ok (Preview.escrowFor quantity reservePrice tickSize maxTick saleDecimals) :
          Except Preview.RangeError Nat)) ∧
    ∀ settled, settled = (exec (step sampleEnv) sampleWorld sampleCalls).auction →
      settled.processedBidCount = settled.committedBidCount →
        (Preview.demandFromBids settled.bids settled.config.numTicks = some settled.demand ↔
          settled.bids ≠ [] ∧ AllEligible settled.config settled.bids) ∧
        (settled.state = .settled → AllEligible settled.config settled.bids → PreviewHolds settled) :=
  preview_agrees sampleEnv (show initializeAuction sampleRegistry sampleConfig = .ok sampleAuction from rfl)
    sampleToken sampleToken sampleCalls

end Peal.Auction
