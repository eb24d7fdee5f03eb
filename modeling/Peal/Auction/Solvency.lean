import Peal.Auction.Settlement

namespace Peal.Auction
open Peal.Fallible Peal.UniformPrice Peal.Runs Peal.Rows SealedBidAuction

/-! # What the auction owes, and whether its balances cover it -/

def isUnclaimed (b : Bid) : Bool := !b.claimed

namespace SealedBidAuction

variable (a : SealedBidAuction)

/-- The sale tokens `claim` pays for a bid. -/
def tokensDue (b : Bid) : Nat := (a.allocationOf b).toOption.getD 0

/-- What a settled bid is charged: `costFloor` of its allocation at the clearing price. -/
def charge (b : Bid) : Nat := a.tokensDue b * a.clearingPrice / 10 ^ a.config.saleDecimals

/-- The quote tokens still owed: unclaimed refunds and proceeds once settled, else unclaimed escrows. -/
def quoteOwed : Nat :=
  if a.state = .settled then
    sumWhere isUnclaimed (fun b => b.escrow - a.charge b) a.bids +
      if a.issuerProceedsClaimed then 0 else a.grossProceeds
  else sumWhere isUnclaimed Bid.escrow a.bids

/-- The sale tokens still owed, to winners and to the issuer. -/
def saleOwed : Nat :=
  match a.state with
  | .created => 0
  | .cancelled => 0
  | .settled => sumWhere isUnclaimed a.tokensDue a.bids +
      if a.issuerUnsoldClaimed then 0 else a.config.totalSupply - a.clearing.supplySold
  | _ => if a.issuerUnsoldClaimed then 0 else a.config.totalSupply

end SealedBidAuction

lemma saleOwed_settled {a : SealedBidAuction} (hs : a.state = .settled) :
    a.saleOwed = sumWhere isUnclaimed a.tokensDue a.bids +
      if a.issuerUnsoldClaimed then 0 else a.config.totalSupply - a.clearing.supplySold := by
  unfold saleOwed
  rw [hs]

lemma quoteOwed_settled {a : SealedBidAuction} (hs : a.state = .settled) :
    a.quoteOwed = sumWhere isUnclaimed (fun b => b.escrow - a.charge b) a.bids +
      if a.issuerProceedsClaimed then 0 else a.grossProceeds := by
  unfold quoteOwed
  rw [if_pos hs]

lemma quoteOwed_unsettled {a : SealedBidAuction} (hs : a.state ≠ .settled) :
    a.quoteOwed = sumWhere isUnclaimed Bid.escrow a.bids := by
  unfold quoteOwed
  rw [if_neg hs]

def Solvent (env : Env) (w : World) : Prop := w.auction.quoteOwed ≤ w.quote.balanceOf env.self

/-- Solvent, and once settled every unclaimed bid and the issuer can be paid. -/
def Honoured (env : Env) (w : World) : Prop :=
  Solvent env w ∧ (w.auction.state = .settled →
    (∀ i b, w.auction.bids[i]? = some b → b.claimed = false →
      ∃ w' tokens refund, w.claim env i = .ok (w', tokens, refund)) ∧
    ∀ msg : Msg env, msg.sender = w.auction.config.issuer →
      w.auction.issuerProceedsClaimed = false → Succeeds (w.claimProceeds env msg))

/-! ### What settlement charges, against what it promises the issuer -/

/-- The state in which a `finalize` at `timestamp` settles the auction. -/
structure Settleable (a : SealedBidAuction) (timestamp : Nat) : Prop where
  state : a.state = .revealing
  window : a.WindowPassed timestamp
  processed : a.processedBidCount = a.bids.length
  demanded : demandFrom (book a.config a.bids) 0 ≠ 0
  fits : demandFrom (book a.config a.bids) (clearsAt a.config a.bids) < 2 ^ 256
  arithmetic : SettlementFits a.config (clearingFor a.config a.bids)

def escrowed (bids : List Bid) : Nat := (bids.map Bid.escrow).sum

/-- The floored fractions of the winners' charges, with the value of the pro-rata dust, stay below
one quote unit more than the contract holds above the escrows. -/
def RoundingCovered (env : Env) (w : World) : Prop :=
  let cfg := w.auction.config
  let bids := w.auction.bids
  roundingLoss (priceFor cfg bids) (10 ^ cfg.saleDecimals) (winnings cfg bids) +
      (sold (book cfg bids) cfg.totalSupply - (winnings cfg bids).sum) * priceFor cfg bids <
    10 ^ cfg.saleDecimals * (w.quote.balanceOf env.self - escrowed bids + 1)

/-- Every settling `finalize` of the run meets the rounding condition. -/
def FinalizeCovered (env : Env) (w : World) (c : Msg env × Call) : Prop :=
  c.2 = .finalize → Settleable w.auction c.1.timestamp → RoundingCovered env w

/-! ### Invariants of every reachable world -/

structure Staged (a : SealedBidAuction) : Prop where
  unclaimed : ¬World.isTerminal a.state → ∀ b ∈ a.bids, b.claimed = false
  proceeds : a.state ≠ .settled → a.issuerProceedsClaimed = false
  unsold : a.state ≠ .settled → a.state ≠ .failed → a.issuerUnsoldClaimed = false
  settled : a.state = .settled → SettledWell a

structure Invariant (env : Env) (w : World) : Prop where
  tallied : Tallied w.auction
  staged : Staged w.auction
  supplied : w.auction.saleOwed ≤ w.sale.balanceOf env.self

lemma invariant_initial {env : Env} {registry : CommitteeRegistry} {cfg : Config}
    {a : SealedBidAuction} (h : initializeAuction registry cfg = .ok a) (sale quote : ERC20) :
    Invariant env ⟨a, registry, sale, quote⟩ ∧ Solvent env ⟨a, registry, sale, quote⟩ := by
  obtain ⟨hcfg, rfl⟩ := initializeAuction_ok h
  refine ⟨⟨⟨hcfg, ?_, ?_, ?_, ?_, ?_, ?_⟩, ⟨?_, ?_, ?_, ?_⟩, ?_⟩, ?_⟩
  · intro b hb
    exact absurd hb (List.not_mem_nil)
  · intro b hb
    exact absurd hb (List.not_mem_nil)
  · intro b hb
    exact absurd hb (List.not_mem_nil)
  · intro t
    rfl
  · rfl
  · norm_num
  · intro _ b hb
    exact absurd hb (List.not_mem_nil)
  · exact fun _ => rfl
  · exact fun _ _ => rfl
  · intro hs
    cases hs
  · exact Nat.zero_le _
  · exact Nat.zero_le _

/-! ### Calls before settlement -/

lemma SameHoldings.unclaimed {a a' : SealedBidAuction} (h : SameHoldings a a')
    (hu : ∀ b ∈ a.bids, b.claimed = false) : ∀ b ∈ a'.bids, b.claimed = false := by
  intro b hb
  have hmem : holding b ∈ a.bids.map holding := by
    rw [← h.holdings]
    exact List.mem_map_of_mem hb
  obtain ⟨b₀, hb₀, heq⟩ := List.mem_map.mp hmem
  have hclaimed : b₀.claimed = b.claimed := congrArg (fun x => x.2.2.2) heq
  rw [← hclaimed]
  exact hu b₀ hb₀

lemma SameHoldings.escrows {a a' : SealedBidAuction} (h : SameHoldings a a') :
    sumWhere isUnclaimed Bid.escrow a'.bids = sumWhere isUnclaimed Bid.escrow a.bids := by
  have hview (bids : List Bid) : sumWhere isUnclaimed Bid.escrow bids =
      sumWhere (fun x => !x.2.2.2) (fun x => x.2.2.1) (bids.map holding) :=
    (sumWhere_map (fun x : Nat × Nat × Nat × Bool => !x.2.2.2) (fun x => x.2.2.1) holding bids).symm
  rw [hview, hview, h.holdings]

lemma staged_running {a : SealedBidAuction} (hs : ¬World.isTerminal a.state)
    (hu : ∀ b ∈ a.bids, b.claimed = false) (hp : a.issuerProceedsClaimed = false)
    (hun : a.issuerUnsoldClaimed = false) : Staged a :=
  ⟨fun _ => hu, fun _ => hp, fun _ _ => hun, fun h => absurd (Or.inl h) hs⟩

/-- What a call other than a settling `finalize` does to the invariants. -/
def Keeps (env : Env) (w w' : World) : Prop :=
  Invariant env w' ∧ (Solvent env w → Solvent env w')

section Running

variable {env : Env} {w : World}

lemma Invariant.running (h : Invariant env w) (hs : ¬World.isTerminal w.auction.state) :
    (∀ b ∈ w.auction.bids, b.claimed = false) ∧ w.auction.issuerProceedsClaimed = false ∧
      w.auction.issuerUnsoldClaimed = false := by
  unfold World.isTerminal at hs
  push Not at hs
  exact ⟨h.staged.unclaimed (by unfold World.isTerminal; push Not; exact hs), h.staged.proceeds hs.1,
    h.staged.unsold hs.1 hs.2.1⟩

lemma Invariant.moveTo (h : Invariant env w) (hs : ¬World.isTerminal w.auction.state) {s : State}
    (hne : s ≠ .settled) {sale : ERC20}
    (hsale : ({ w.auction with state := s } : SealedBidAuction).saleOwed ≤ sale.balanceOf env.self) :
    Keeps env w { w with sale := sale, auction := { w.auction with state := s } } := by
  obtain ⟨hu, hp, hun⟩ := h.running hs
  have hold : w.auction.state ≠ .settled := fun heq => hs (Or.inl heq)
  refine ⟨⟨h.tallied.of_same rfl rfl rfl rfl, ⟨fun _ => hu, fun _ => hp, fun _ _ => hun, fun heq => ?_⟩,
    hsale⟩, fun hsol => ?_⟩
  · exact absurd heq hne
  · unfold Solvent quoteOwed at hsol ⊢
    rw [if_neg hold] at hsol
    rw [if_neg hne]
    exact hsol

lemma Invariant.funded (h : Invariant env w) (hs : ¬World.isTerminal w.auction.state)
    (hc : w.auction.state ≠ .created) :
    w.auction.config.totalSupply ≤ w.sale.balanceOf env.self := by
  obtain ⟨-, -, hun⟩ := h.running hs
  have hsup := h.supplied
  unfold World.isTerminal at hs
  push Not at hs
  unfold saleOwed at hsup
  rw [hun] at hsup
  cases hst : w.auction.state <;> simp_all

lemma saleOwed_le_supply {a : SealedBidAuction} (hs : a.state ≠ .settled) :
    a.saleOwed ≤ a.config.totalSupply := by
  unfold saleOwed
  cases hst : a.state with
  | settled => exact absurd hst hs
  | created => exact Nat.zero_le _
  | cancelled => exact Nat.zero_le _
  | _ =>
    dsimp only
    split_ifs <;> omega

lemma Invariant.proceedTo (h : Invariant env w) (hs : ¬World.isTerminal w.auction.state)
    (hc : w.auction.state ≠ .created) {s : State} (hne : s ≠ .settled) :
    Keeps env w { w with auction := { w.auction with state := s } } :=
  h.moveTo hs hne ((saleOwed_le_supply hne).trans (h.funded hs hc))

lemma notTerminal {s t : State} (h : s = t) (ht : t ≠ .settled ∧ t ≠ .failed ∧ t ≠ .cancelled) :
    ¬World.isTerminal s := by
  rw [h]
  rintro (hs | hs | hs)
  · exact ht.1 hs
  · exact ht.2.1 hs
  · exact ht.2.2 hs

lemma keeps_fund {msg : Msg env} {w' : World} (h : Invariant env w) (hstep : w.fund env msg = .ok w') :
    Keeps env w w' := by
  obtain ⟨hs, sale, hsale, rfl⟩ := World.fund_ok hstep
  refine h.moveTo (notTerminal hs (by decide)) (by decide) ?_
  have hne : State.funded ≠ .settled := by decide
  have hle := saleOwed_le_supply (a := { w.auction with state := .funded }) hne
  rw [hsale]
  exact hle.trans (Nat.le_add_left _ _)

lemma keeps_cancel {msg : Msg env} {w' : World} (h : Invariant env w)
    (hstep : w.cancel env msg = .ok w') : Keeps env w w' := by
  obtain ⟨sale, hs, rfl⟩ := World.cancel_ok hstep
  have hrun : ¬World.isTerminal w.auction.state := by
    rcases hs with hs | hs | ⟨hs, -⟩
    · exact notTerminal hs (by decide)
    · exact notTerminal hs (by decide)
    · exact notTerminal hs (by decide)
  exact h.moveTo hrun (by decide) (Nat.zero_le _)

lemma keeps_commit {msg : Msg env} {c ct esc : Nat} {quote : ERC20} (h : Invariant env w)
    (hs : w.auction.state = .commitOpen) (hlen : w.auction.bids.length + 1 < 2 ^ 32)
    (hq : quote.balanceOf env.self = w.quote.balanceOf env.self + esc) :
    Keeps env w { w with
      quote := quote,
      auction := { w.auction with bids := w.auction.bids ++ [World.newBid msg c ct esc] } } := by
  have hrun : ¬World.isTerminal w.auction.state := notTerminal hs (by decide)
  obtain ⟨hu, hp, hun⟩ := h.running hrun
  refine ⟨⟨h.tallied.commit hlen msg.sender_ne_zero rfl rfl, ?_, ?_⟩, fun hsol => ?_⟩
  · refine staged_running hrun (fun b hb => ?_) hp hun
    rcases List.mem_append.mp hb with hmem | hmem
    · exact hu b hmem
    · rw [List.mem_singleton.mp hmem]
      rfl
  · have hsup := h.supplied
    unfold saleOwed at hsup ⊢
    rw [hs] at hsup ⊢
    exact hsup
  · unfold Solvent quoteOwed at hsol ⊢
    rw [hs] at hsol ⊢
    simp only [reduceCtorEq, if_false] at hsol ⊢
    rw [sumWhere_append, sumWhere_cons, sumWhere_nil, hq]
    change _ + (esc + 0) ≤ _
    omega

lemma keeps_processReveals {msg : Msg env} {entries : List RevealEntry} {a' : SealedBidAuction}
    (h : Invariant env w) (hstep : w.auction.processReveals env msg entries = .ok a') :
    Keeps env w { w with auction := a' } := by
  have ht := h.tallied.processReveals hstep
  obtain ⟨hs, hsame⟩ := processReveals_sameHoldings hstep
  have hrun : ¬World.isTerminal w.auction.state := notTerminal hs (by decide)
  obtain ⟨hu, hp, hun⟩ := h.running hrun
  have hs' : a'.state = .revealing := hsame.state.trans hs
  refine ⟨⟨ht, ?_, ?_⟩, fun hsol => ?_⟩
  · refine staged_running (notTerminal hs' (by decide)) (hsame.unclaimed hu) ?_ ?_
    · exact hsame.proceeds.trans hp
    · exact hsame.unsold.trans hun
  · have hle := saleOwed_le_supply (a := a') (by rw [hs']; decide)
    rw [hsame.config] at hle
    exact hle.trans (h.funded hrun (by rw [hs]; decide))
  · unfold Solvent quoteOwed at hsol ⊢
    rw [hs, if_neg (by decide)] at hsol
    change (if a'.state = .settled then _ else _) ≤ _
    rw [hs', if_neg (by decide), hsame.escrows]
    exact hsol

lemma keeps_registerRevealRoot {msg : Msg env} {root n : Nat} {signatures : List (List Nat)}
    {a' : SealedBidAuction} (h : Invariant env w)
    (hstep : w.auction.registerRevealRoot env msg w.registry root n signatures = .ok a') :
    Keeps env w { w with auction := a' } := by
  obtain ⟨hs, rfl⟩ := registerRevealRoot_ok hstep
  have hkept := h.proceedTo (notTerminal hs (by decide)) (by rw [hs]; decide)
    (show State.revealing ≠ .settled by decide)
  obtain ⟨⟨ht, hst, hsup⟩, hsol⟩ := hkept
  exact ⟨⟨ht.of_same rfl rfl rfl rfl, ⟨hst.1, hst.2, hst.3, fun heq => by cases heq⟩, hsup⟩, hsol⟩

lemma keeps_elsewhere {sale quote : ERC20} (h : Invariant env w)
    (hsale : w.sale.balanceOf env.self ≤ sale.balanceOf env.self)
    (hquote : w.quote.balanceOf env.self ≤ quote.balanceOf env.self) :
    Keeps env w { w with sale := sale, quote := quote } :=
  ⟨⟨h.tallied, h.staged, h.supplied.trans hsale⟩, fun hsol => le_trans hsol hquote⟩

end Running

/-! ### Claims -/

section Settled

variable {env : Env} {w : World}

lemma tokensDue_eq {a : SealedBidAuction} (h : Tallied a) (hw : SettledWell a)
    (hs : a.state = .settled) {b : Bid} (hb : b ∈ a.bids) :
    a.tokensDue b = allotted a.config a.bids b := by
  unfold tokensDue
  rw [h.allocationOf_eq hw hs hb]
  rfl

lemma charge_eq {a : SealedBidAuction} (h : Tallied a) (hw : SettledWell a)
    (hs : a.state = .settled) {b : Bid} (hb : b ∈ a.bids) :
    a.charge b = allotted a.config a.bids b * priceFor a.config a.bids / 10 ^ a.config.saleDecimals := by
  unfold charge
  rw [tokensDue_eq h hw hs hb, hw.price, hw.clearing, priceOf_clearingFor hw.demanded]

lemma claimAmounts_settled {a : SealedBidAuction} (h : Tallied a) (hw : SettledWell a)
    (hs : a.state = .settled) {b : Bid} (hb : b ∈ a.bids) :
    a.claimAmounts b = .ok (a.tokensDue b, b.escrow - a.charge b) := by
  rw [h.claimAmounts_eq hw hs hb, tokensDue_eq h hw hs hb, charge_eq h hw hs hb]

lemma sumWhere_claim {a : SealedBidAuction} {i : Nat} {b : Bid} (hb : a.bids[i]? = some b)
    (hc : b.claimed = false) (f : Bid → Nat) :
    sumWhere isUnclaimed f (World.afterClaim a i b).bids + f b = sumWhere isUnclaimed f a.bids := by
  have hset := sumWhere_set (p := isUnclaimed) (f := f) hb { b with claimed := true }
  have hpaid : isUnclaimed { b with claimed := true } = false := rfl
  have hopen : isUnclaimed b = true := by
    unfold isUnclaimed
    rw [hc]
    rfl
  rw [hpaid, hopen] at hset
  simp only [if_true, Bool.false_eq_true, if_false, Nat.add_zero] at hset
  exact hset

lemma settledWell_afterClaim {a : SealedBidAuction} (hw : SettledWell a) {i : Nat} {b : Bid}
    (hb : a.bids[i]? = some b) : SettledWell (World.afterClaim a i b) := by
  have hbook : book a.config (World.afterClaim a i b).bids = book a.config a.bids :=
    filterMap_set_eq hb rfl
  refine ⟨forall_mem_set hw.revealed (hw.revealed b (List.mem_of_getElem? hb)), ?_, ?_, hw.arithmetic,
    ?_, hw.price, hw.gross, hw.fee⟩
  · change demandFrom (book a.config _) 0 ≠ 0
    rw [hbook]
    exact hw.demanded
  · change demandFrom (book a.config _) (clearingTick (book a.config _) _ _) < 2 ^ 256
    rw [hbook]
    exact hw.fits
  · change a.clearing = clearingOf (book a.config _) _ _
    rw [hbook]
    exact hw.clearing

lemma saleOwed_afterClaim {i tokens refund : Nat} {b : Bid} (h : Invariant env w)
    (hb : w.auction.bids[i]? = some b) (hc : b.claimed = false) (hterm : World.isTerminal w.auction.state)
    (hamounts : w.auction.claimAmounts b = .ok (tokens, refund)) :
    (World.afterClaim w.auction i b).saleOwed + tokens = w.auction.saleOwed := by
  by_cases hs : w.auction.state = .settled
  · have hs' : (World.afterClaim w.auction i b).state = .settled := hs
    rw [claimAmounts_settled h.tallied (h.staged.settled hs) hs (List.mem_of_getElem? hb)] at hamounts
    obtain ⟨rfl, -⟩ := Prod.mk.inj (Except.ok.inj hamounts)
    rw [saleOwed_settled hs', saleOwed_settled hs, ← sumWhere_claim hb hc w.auction.tokensDue]
    exact Nat.add_right_comm _ _ _
  · unfold claimAmounts at hamounts
    rw [if_neg hs] at hamounts
    obtain ⟨rfl, -⟩ := Prod.mk.inj (Except.ok.inj hamounts)
    rcases hterm.resolve_left hs with hf | hf
    · have hf' : (World.afterClaim w.auction i b).state = .failed := hf
      unfold saleOwed
      rw [hf, hf']
      rfl
    · have hf' : (World.afterClaim w.auction i b).state = .cancelled := hf
      unfold saleOwed
      rw [hf, hf']

lemma keeps_claim {i tokens refund : Nat} {w' : World} (h : Invariant env w)
    (hstep : w.claim env i = .ok (w', tokens, refund)) : Keeps env w w' := by
  obtain ⟨b, hb, hc, hterm, hamounts, sale, quote, hsale, hquote, rfl⟩ := World.claim_ok hstep
  have hmem : b ∈ w.auction.bids := List.mem_of_getElem? hb
  have ht : Tallied (World.afterClaim w.auction i b) := h.tallied.set_same hb rfl rfl rfl rfl rfl rfl
  have hescrow := sumWhere_claim hb hc Bid.escrow
  have hsup := h.supplied
  have hsale_owed := saleOwed_afterClaim h hb hc hterm hamounts
  by_cases hs : w.auction.state = .settled
  · have hw := h.staged.settled hs
    have hpaid : (tokens, refund) = (w.auction.tokensDue b, b.escrow - w.auction.charge b) := by
      rw [claimAmounts_settled h.tallied hw hs hmem] at hamounts
      exact (Except.ok.inj hamounts).symm
    obtain ⟨rfl, rfl⟩ := Prod.mk.inj hpaid
    have hrefunds := sumWhere_claim hb hc (fun b => b.escrow - w.auction.charge b)
    have hs' : (World.afterClaim w.auction i b).state = .settled := hs
    have hquote_owed : (World.afterClaim w.auction i b).quoteOwed + (b.escrow - w.auction.charge b) =
        w.auction.quoteOwed := by
      rw [quoteOwed_settled hs', quoteOwed_settled hs, ← hrefunds]
      exact Nat.add_right_comm _ _ _
    refine ⟨⟨ht, ⟨fun hn => absurd (Or.inl hs) hn, fun hn => absurd hs hn, fun hn => absurd hs hn,
      fun _ => settledWell_afterClaim hw hb⟩, ?_⟩, fun hsol => ?_⟩
    · dsimp only
      omega
    · unfold Solvent at hsol ⊢
      dsimp only
      omega
  · have hhalt : w.auction.state = .failed ∨ w.auction.state = .cancelled := by
      rcases hterm with hset | hhalt
      · exact absurd hset hs
      · exact hhalt
    unfold claimAmounts at hamounts
    rw [if_neg hs] at hamounts
    obtain ⟨rfl, rfl⟩ := Prod.mk.inj (Except.ok.inj hamounts)
    have hs' : (World.afterClaim w.auction i b).state ≠ .settled := hs
    have hquote_owed : (World.afterClaim w.auction i b).quoteOwed + b.escrow =
        w.auction.quoteOwed := by
      rw [quoteOwed_unsettled hs', quoteOwed_unsettled hs]
      exact hescrow
    have hst := h.staged
    refine ⟨⟨ht, ⟨fun hn => absurd hterm hn, hst.proceeds, hst.unsold, fun hn => absurd hn hs⟩, ?_⟩,
      fun hsol => ?_⟩
    · dsimp only
      omega
    · unfold Solvent at hsol ⊢
      dsimp only
      omega

lemma keeps_claimProceeds {msg : Msg env} {w' : World} (h : Invariant env w)
    (hstep : w.claimProceeds env msg = .ok w') : Keeps env w w' := by
  obtain ⟨hs, hunclaimed, -, quote, hquote, rfl⟩ := World.claimProceeds_ok hstep
  have hw := h.staged.settled hs
  have hsup := h.supplied
  refine ⟨⟨h.tallied.of_same rfl rfl rfl rfl, ⟨fun hn => absurd (Or.inl hs) hn, fun hn => absurd hs hn,
    fun hn => absurd hs hn, fun _ => ⟨hw.1, hw.2, hw.3, hw.4, hw.5, hw.6, hw.7, hw.8⟩⟩, hsup⟩,
    fun hsol => ?_⟩
  unfold Solvent quoteOwed at hsol ⊢
  rw [if_pos hs, hunclaimed] at hsol
  rw [if_pos hs]
  simp only [Bool.false_eq_true, if_false, if_true] at hsol ⊢
  change sumWhere isUnclaimed (fun b => b.escrow - w.auction.charge b) _ + 0 ≤ _
  omega

lemma keeps_claimUnsold {msg : Msg env} {w' : World} (h : Invariant env w)
    (hstep : w.claimUnsold env msg = .ok w') : Keeps env w w' := by
  obtain ⟨hunclaimed, sale, hsale, rfl⟩ := World.claimUnsold_ok hstep
  have hsup := h.supplied
  have ht : Tallied { w.auction with issuerUnsoldClaimed := true } :=
    h.tallied.of_same rfl rfl rfl rfl
  rcases hsale with ⟨hs, hle⟩ | ⟨hs, hle⟩
  · have hw := h.staged.settled hs
    refine ⟨⟨ht, ⟨fun hn => absurd (Or.inl hs) hn, fun hn => absurd hs hn, fun hn => absurd hs hn,
      fun _ => ⟨hw.1, hw.2, hw.3, hw.4, hw.5, hw.6, hw.7, hw.8⟩⟩, ?_⟩, fun hsol => hsol⟩
    unfold saleOwed at hsup ⊢
    rw [hs, hunclaimed] at hsup
    rw [hs]
    simp only [Bool.false_eq_true, if_false, if_true] at hsup ⊢
    change sumWhere isUnclaimed w.auction.tokensDue _ + 0 ≤ _
    omega
  · have hst := h.staged
    refine ⟨⟨ht, ⟨fun hn => absurd (Or.inr (Or.inl hs)) hn, hst.proceeds, fun _ hn => absurd hs hn,
      fun hn => by rw [hs] at hn; cases hn⟩, ?_⟩, fun hsol => hsol⟩
    unfold saleOwed
    rw [hs]
    exact Nat.zero_le _

end Settled

end Peal.Auction
