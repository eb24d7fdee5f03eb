import Peal.Auction.QuoteSolvency

namespace Peal.Auction
open Peal.Fallible Peal.UniformPrice Peal.Runs Peal.Rows SealedBidAuction

/-! # Where the sale tokens end up -/

namespace SealedBidAuction

variable (a : SealedBidAuction)

/-- Sold units that no bid was allotted. -/
def dust : Nat :=
  if a.state = .settled then sold (book a.config a.bids) a.config.totalSupply - (winnings a.config a.bids).sum
  else 0

/-- No bid of a settled auction lost a fraction of a unit to its pro-rata share. -/
def NothingRounded : Prop :=
  a.state = .settled → WholeShares (book a.config a.bids) a.config.totalSupply a.config.numTicks

/-- Every bidder and the issuer has claimed. -/
structure AllClaimed : Prop where
  ended : a.state = .settled ∨ a.state = .failed
  bids : ∀ b ∈ a.bids, b.claimed = true
  unsold : a.issuerUnsoldClaimed = true

end SealedBidAuction

/-- The balance covers what is owed, and nothing is left when nothing is owed any more. -/
def SaleAccounted (env : Env) (w : World) : Prop :=
  w.auction.saleOwed ≤ w.sale.balanceOf env.self ∧ (w.auction.AllClaimed → w.sale.balanceOf env.self = 0)

/-- The sale tokens one call adds without funding the auction. -/
def saleGift (env : Env) (w : World) (c : Msg env × Call) : Nat :=
  match c.2 with
  | .elsewhere _ _ => (advance (step env) w c).sale.balanceOf env.self - w.sale.balanceOf env.self
  | _ => 0

def saleGifts (env : Env) : World → List (Msg env × Call) → Nat
  | _, [] => 0
  | w, c :: calls => saleGift env w c + saleGifts env (advance (step env) w c) calls

/-- The balance to the unit: what is owed, the dust, and what others sent. -/
structure Exact (env : Env) (gifts : Nat) (w : World) : Prop where
  invariant : Invariant env w
  bidders : ∀ b ∈ w.auction.bids, b.bidder ≠ env.self
  balance : w.sale.balanceOf env.self = w.auction.saleOwed + w.auction.dust + gifts

section Steps

variable {env : Env} {w w' : World} {msg : Msg env} {gifts : Nat}

lemma saleOwed_unsettled {a : SealedBidAuction} (hrun : a.state ≠ .created ∧ a.state ≠ .settled ∧ a.state ≠ .cancelled)
    (hun : a.issuerUnsoldClaimed = false) : a.saleOwed + a.dust = a.config.totalSupply := by
  obtain ⟨hcreated, hsettled, hcancelled⟩ := hrun
  unfold saleOwed dust
  rw [hun, if_neg hsettled]
  cases hs : a.state with
  | created => exact absurd hs hcreated
  | settled => exact absurd hs hsettled
  | cancelled => exact absurd hs hcancelled
  | _ => rfl

lemma Exact.proceed {a' : SealedBidAuction} (h : Exact env gifts w) (hinv : Invariant env { w with auction := a' })
    (hrun : ¬World.isTerminal w.auction.state) (hcreated : w.auction.state ≠ .created)
    (hnext : a'.state ≠ .created ∧ a'.state ≠ .settled ∧ a'.state ≠ .cancelled)
    (hconfig : a'.config = w.auction.config) (hunsold : a'.issuerUnsoldClaimed = w.auction.issuerUnsoldClaimed)
    (hbidders : ∀ b ∈ a'.bids, b.bidder ≠ env.self) : Exact env gifts { w with auction := a' } := by
  obtain ⟨-, -, hun⟩ := h.invariant.running hrun
  have hstate : w.auction.state ≠ .settled ∧ w.auction.state ≠ .cancelled :=
    ⟨fun hs => hrun (.inl hs), fun hs => hrun (.inr (.inr hs))⟩
  refine ⟨hinv, hbidders, ?_⟩
  have hbalance := h.balance
  rw [saleOwed_unsettled ⟨hcreated, hstate⟩ hun] at hbalance
  dsimp only
  rw [saleOwed_unsettled hnext (hunsold.trans hun), hconfig, hbalance]

lemma SameHoldings.bidders {a a' : SealedBidAuction} (h : SameHoldings a a') {x : Nat}
    (hx : ∀ b ∈ a.bids, b.bidder ≠ x) : ∀ b ∈ a'.bids, b.bidder ≠ x := by
  intro b hb
  have hmem : holding b ∈ a.bids.map holding := by
    rw [← h.holdings]
    exact List.mem_map_of_mem hb
  obtain ⟨b₀, hb₀, heq⟩ := List.mem_map.mp hmem
  have hbidder : b₀.bidder = b.bidder := congrArg (fun x => x.1) heq
  exact hbidder ▸ hx b₀ hb₀

lemma dust_afterClaim {a : SealedBidAuction} {i : Nat} {b : Bid} (hb : a.bids[i]? = some b) :
    (World.afterClaim a i b).dust = a.dust := by
  have hbook : book a.config (World.afterClaim a i b).bids = book a.config a.bids :=
    filterMap_set_eq hb rfl
  unfold dust winnings
  change (if a.state = .settled then sold (book a.config (World.afterClaim a i b).bids) a.config.totalSupply -
    ((book a.config (World.afterClaim a i b).bids).map
      (fill (book a.config (World.afterClaim a i b).bids) a.config.totalSupply a.config.numTicks)).sum else 0) = _
  rw [hbook]

/-! ### What leaves the contract -/

lemma paySaleIfAny_exact {recipient amount : Nat} (hr : recipient ≠ env.self)
    (h : w.paySaleIfAny env recipient amount = .ok w') :
    w'.sale.balanceOf env.self + amount = w.sale.balanceOf env.self := by
  unfold World.paySaleIfAny at h
  split_ifs at h with hpos
  · simp only [World.paySale, bind_eq_ok, ERC20.transfer_eq_ok, Except.ok.injEq] at h
    obtain ⟨sale, ⟨-, hle, rfl⟩, rfl⟩ := h
    exact ERC20.move_out hr hle
  · obtain rfl := Except.ok.inj h
    omega

lemma claim_exact {i tokens refund : Nat} (hbidders : ∀ b ∈ w.auction.bids, b.bidder ≠ env.self)
    (h : w.claim env i = .ok (w', tokens, refund)) :
    w'.sale.balanceOf env.self + tokens = w.sale.balanceOf env.self := by
  simp only [World.claim, bind_eq_ok, require_eq_ok] at h
  obtain ⟨-, hbidder, -, -, -, -, ⟨t, r⟩, -, w₁, h₁, w₂, h₂, heq⟩ := h
  simp only [Except.ok.injEq, Prod.mk.injEq] at heq
  obtain ⟨rfl, rfl, rfl⟩ := heq
  have hpaid := paySaleIfAny_exact (hbidders _ (List.mem_of_getElem? (bid_written hbidder))) h₁
  obtain ⟨quote, -, rfl⟩ := World.payQuoteIfAny_ok h₂
  exact hpaid

lemma cancel_exact (h : w.cancel env msg = .ok w') :
    (w.auction.state = .created ∧ w'.sale = w.sale) ∨ (w.auction.state ≠ .created ∧
      w'.sale.balanceOf env.self + w.auction.config.totalSupply = w.sale.balanceOf env.self) := by
  simp only [World.cancel, bind_eq_ok, onlyIssuer_eq_ok] at h
  obtain ⟨-, hissuer, h⟩ := h
  split_ifs at h with hcreated hfunded
  · obtain rfl := Except.ok.inj h
    exact .inl ⟨hcreated, rfl⟩
  · simp only [World.paySale, bind_eq_ok, ERC20.transfer_eq_ok, Except.ok.injEq] at h
    obtain ⟨sale, ⟨-, hle, rfl⟩, rfl⟩ := h
    exact .inr ⟨hcreated, ERC20.move_out (hissuer ▸ msg.sender_ne_self) hle⟩

lemma claimUnsold_exact (h : w.claimUnsold env msg = .ok w') :
    (w.auction.state = .settled ∨ w.auction.state = .failed) ∧ w.auction.issuerUnsoldClaimed = false ∧
      w'.auction = { w.auction with issuerUnsoldClaimed := true } ∧
      w'.sale.balanceOf env.self + (w.auction.config.totalSupply -
        if w.auction.state = .settled then w.auction.clearing.supplySold else 0) = w.sale.balanceOf env.self := by
  simp only [World.claimUnsold, bind_eq_ok, onlyIssuer_eq_ok, require_eq_ok, checkedSub_eq_ok] at h
  obtain ⟨-, hissuer, -, hs, -, hunclaimed, unsold, ⟨-, rfl⟩, h⟩ := h
  have hpaid := paySaleIfAny_exact (hissuer ▸ msg.sender_ne_self) h
  obtain ⟨sale, -, rfl⟩ := World.paySaleIfAny_ok h
  exact ⟨hs, hunclaimed, rfl, hpaid⟩

/-! ### One call -/

lemma exact_fund (h : Exact env gifts w) (hinv : Invariant env w') (hstep : w.fund env msg = .ok w') :
    Exact env gifts w' := by
  obtain ⟨hs, sale, hsale, rfl⟩ := World.fund_ok hstep
  obtain ⟨-, -, hun⟩ := h.invariant.running (notTerminal hs (by decide))
  have hbalance := h.balance
  have hnothing : w.auction.saleOwed + w.auction.dust = 0 := by
    unfold saleOwed dust
    rw [hs]
    rfl
  have hfunded := saleOwed_unsettled (a := { w.auction with state := .funded }) (by simp) hun
  refine ⟨hinv, h.bidders, ?_⟩
  dsimp only at hfunded ⊢
  omega

lemma exact_cancel (h : Exact env gifts w) (hinv : Invariant env w') (hstep : w.cancel env msg = .ok w') :
    Exact env gifts w' := by
  have hpaid := cancel_exact hstep
  obtain ⟨sale, hs, rfl⟩ := World.cancel_ok hstep
  have hbalance := h.balance
  have hnothing : ({ w.auction with state := .cancelled } : SealedBidAuction).saleOwed +
      ({ w.auction with state := .cancelled } : SealedBidAuction).dust = 0 := rfl
  refine ⟨hinv, h.bidders, ?_⟩
  dsimp only at hpaid ⊢
  rw [hnothing]
  have hrun : ¬World.isTerminal w.auction.state := by
    rcases hs with hs | hs | ⟨hs, -⟩
    · exact notTerminal hs (by decide)
    · exact notTerminal hs (by decide)
    · exact notTerminal hs (by decide)
  obtain ⟨-, -, hun⟩ := h.invariant.running hrun
  rcases hpaid with ⟨hcreated, rfl⟩ | ⟨hcreated, hpaid⟩
  · have hempty : w.auction.saleOwed + w.auction.dust = 0 := by
      unfold saleOwed dust
      rw [hcreated]
      rfl
    omega
  · have hall := saleOwed_unsettled (a := w.auction)
      ⟨hcreated, fun heq => hrun (.inl heq), fun heq => hrun (.inr (.inr heq))⟩ hun
    omega

lemma exact_claim {i tokens refund : Nat} (h : Exact env gifts w) (hinv : Invariant env w')
    (hstep : w.claim env i = .ok (w', tokens, refund)) : Exact env gifts w' := by
  have hpaid := claim_exact h.bidders hstep
  obtain ⟨b, hb, hc, hterm, hamounts, sale, quote, -, -, rfl⟩ := World.claim_ok hstep
  have howed := saleOwed_afterClaim h.invariant hb hc hterm hamounts
  have hbalance := h.balance
  refine ⟨hinv, forall_mem_set h.bidders (h.bidders b (List.mem_of_getElem? hb)), ?_⟩
  dsimp only at hpaid ⊢
  rw [dust_afterClaim hb]
  omega

lemma exact_claimUnsold (h : Exact env gifts w) (hinv : Invariant env w')
    (hstep : w.claimUnsold env msg = .ok w') : Exact env gifts w' := by
  obtain ⟨hs, hunclaimed, hauction, hpaid⟩ := claimUnsold_exact hstep
  have hbalance := h.balance
  refine ⟨hinv, ?_, ?_⟩
  · rw [hauction]
    exact h.bidders
  · have hdust : w'.auction.dust = w.auction.dust := by
      rw [hauction]
      rfl
    have howed : w'.auction.saleOwed + (w.auction.config.totalSupply -
        if w.auction.state = .settled then w.auction.clearing.supplySold else 0) = w.auction.saleOwed := by
      rw [hauction]
      unfold saleOwed
      rcases hs with hs | hs
      · rw [hs, hunclaimed]
        rfl
      · rw [hs, hunclaimed]
        simp
    omega

lemma exact_settle (h : Exact env gifts w) {a' : SealedBidAuction}
    (hinv : Invariant env { w with auction := a' }) (hstep : w.auction.finalize env msg = .ok a') :
    Exact env gifts { w with auction := a' } := by
  obtain ⟨hs, -, hprocessed, hfits, hcase⟩ := h.invariant.tallied.finalize_eq_ok.mp hstep
  have hrun : ¬World.isTerminal w.auction.state := notTerminal hs (by decide)
  have hcreated : w.auction.state ≠ .created := by rw [hs]; decide
  rcases hcase with ⟨hsome, harith, rfl⟩ | ⟨-, rfl⟩
  · obtain ⟨hu, -, hun⟩ := h.invariant.running hrun
    have ht := h.invariant.tallied
    have hw := ht.settledWell hprocessed hfits hsome harith
    have ht' : Tallied (w.auction.afterSettle (clearingFor w.auction.config w.auction.bids)) :=
      ht.of_same rfl rfl rfl rfl
    have htokens := settled_tokens ht' hw rfl hu
    have hwin := ht.winnings_le_sold
    have hsold : (clearingFor w.auction.config w.auction.bids).supplySold =
        sold (book w.auction.config w.auction.bids) w.auction.config.totalSupply :=
      clearingOf_sold ht.accepted.supply_pos hsome
    have hsupply : sold (book w.auction.config w.auction.bids) w.auction.config.totalSupply ≤
        w.auction.config.totalSupply := min_le_left _ _
    have hdust : (w.auction.afterSettle (clearingFor w.auction.config w.auction.bids)).dust =
        sold (book w.auction.config w.auction.bids) w.auction.config.totalSupply -
          (winnings w.auction.config w.auction.bids).sum := rfl
    have howed : (w.auction.afterSettle (clearingFor w.auction.config w.auction.bids)).saleOwed =
        (winnings w.auction.config w.auction.bids).sum + (w.auction.config.totalSupply -
          sold (book w.auction.config w.auction.bids) w.auction.config.totalSupply) := by
      rw [saleOwed_settled rfl, htokens, ← hsold]
      change _ + (if w.auction.issuerUnsoldClaimed then 0 else _) = _
      rw [hun]
      rfl
    have hbalance := h.balance
    rw [saleOwed_unsettled ⟨hcreated, by rw [hs]; decide, by rw [hs]; decide⟩ hun] at hbalance
    refine ⟨hinv, h.bidders, ?_⟩
    dsimp only
    rw [howed, hdust]
    omega
  · exact h.proceed hinv hrun hcreated (by simp) rfl rfl h.bidders

/-- Every accepted call keeps the balance exact, with what others send counted apart. -/
theorem step_exact {c : Msg env × Call} (h : Exact env gifts w) (hstep : step env w c = .ok w') :
    Exact env (gifts + saleGift env w c) w' := by
  have hinv := step_invariant h.invariant hstep
  obtain ⟨msg, c⟩ := c
  have hcommit : ∀ (commitment ciphertextHash escrow : Nat) (quote : ERC20),
      w.auction.state = .commitOpen →
      Invariant env { w with quote := quote, auction := { w.auction with
        bids := w.auction.bids ++ [World.newBid msg commitment ciphertextHash escrow] } } →
      Exact env gifts { w with quote := quote, auction := { w.auction with
        bids := w.auction.bids ++ [World.newBid msg commitment ciphertextHash escrow] } } := by
    intro commitment ciphertextHash escrow quote hs hinv
    have hnotice : w.auction.state ≠ .settled := by rw [hs]; decide
    refine ⟨hinv, fun b hb => ?_, ?_⟩
    · rcases List.mem_append.mp hb with hold | hnew
      · exact h.bidders b hold
      · rw [List.mem_singleton.mp hnew]
        exact msg.sender_ne_self
    · have hbalance := h.balance
      unfold saleOwed dust at hbalance ⊢
      rw [hs] at hbalance ⊢
      exact hbalance
  cases c with
  | fund => exact exact_fund h hinv hstep
  | cancel => exact exact_cancel h hinv hstep
  | commitBid commitment ciphertextHash escrowAmount allowlistProof =>
    obtain ⟨hs, -, quote, -, rfl⟩ := World.commitBid_ok hstep
    exact hcommit _ _ _ _ hs hinv
  | commitBidWithPermit commitment ciphertextHash escrowAmount allowlistProof accepted =>
    obtain ⟨hs, -, quote, -, rfl⟩ := World.commitBidWithPermit_ok hstep
    exact hcommit _ _ _ _ hs hinv
  | claim bidId =>
    simp only [step, bind_eq_ok] at hstep
    obtain ⟨⟨w₁, tokens, refund⟩, hclaim, heq⟩ := hstep
    obtain rfl := Except.ok.inj heq
    exact exact_claim h hinv hclaim
  | claimProceeds =>
    obtain ⟨-, -, -, quote, -, rfl⟩ := World.claimProceeds_ok hstep
    exact ⟨hinv, h.bidders, h.balance⟩
  | claimUnsold => exact exact_claimUnsold h hinv hstep
  | registerCommitteeSet threshold members =>
    simp only [step, bind_eq_ok] at hstep
    obtain ⟨registry, -, heq⟩ := hstep
    obtain rfl := Except.ok.inj heq
    exact ⟨hinv, h.bidders, h.balance⟩
  | elsewhere sale quote =>
    have hgift : saleGift env w (msg, .elsewhere sale quote) =
        w'.sale.balanceOf env.self - w.sale.balanceOf env.self := by
      unfold saleGift
      rw [advance_of_ok _ hstep]
    simp only [step, bind_eq_ok, require_eq_ok] at hstep
    obtain ⟨-, ⟨hsale, -⟩, heq⟩ := hstep
    obtain rfl := Except.ok.inj heq
    have hbalance := h.balance
    refine ⟨hinv, h.bidders, ?_⟩
    rw [hgift]
    dsimp only
    omega
  | openCommit =>
    obtain ⟨a', ha, rfl⟩ := World.onAuction_ok hstep
    obtain ⟨hs, rfl⟩ := openCommit_ok ha
    exact h.proceed hinv (notTerminal hs (by decide)) (by rw [hs]; decide) (by simp) rfl rfl h.bidders
  | registerBatch batchCommitment =>
    obtain ⟨a', ha, rfl⟩ := World.onAuction_ok hstep
    obtain ⟨hs, rfl⟩ := registerBatch_ok ha
    exact ⟨hinv, h.bidders, h.balance⟩
  | closeCommit =>
    obtain ⟨a', ha, rfl⟩ := World.onAuction_ok hstep
    obtain ⟨hs, ⟨-, rfl⟩ | ⟨-, rfl⟩⟩ := closeCommit_ok ha
    · exact h.proceed hinv (notTerminal hs (by decide)) (by rw [hs]; decide) (by simp) rfl rfl h.bidders
    · exact h.proceed hinv (notTerminal hs (by decide)) (by rw [hs]; decide) (by simp) rfl rfl h.bidders
  | registerRevealRoot root bidCount signatures =>
    obtain ⟨a', ha, rfl⟩ := World.onAuction_ok hstep
    obtain ⟨hs, rfl⟩ := registerRevealRoot_ok ha
    exact h.proceed hinv (notTerminal hs (by decide)) (by rw [hs]; decide) (by simp) rfl rfl h.bidders
  | processReveals entries =>
    obtain ⟨a', ha, rfl⟩ := World.onAuction_ok hstep
    obtain ⟨hs, hsame⟩ := processReveals_sameHoldings ha
    exact h.proceed hinv (notTerminal hs (by decide)) (by rw [hs]; decide) (by rw [hsame.state, hs]; simp)
      hsame.config hsame.unsold (hsame.bidders h.bidders)
  | disputeVoid bidId quantity tick salt bidVersion =>
    obtain ⟨a', ha, rfl⟩ := World.onAuction_ok hstep
    obtain ⟨hs, -, -, rfl⟩ := disputeVoid_ok ha
    exact h.proceed hinv (notTerminal hs (by decide)) (by rw [hs]; decide) (by simp) rfl rfl h.bidders
  | finalize =>
    obtain ⟨a', ha, rfl⟩ := World.onAuction_ok hstep
    exact exact_settle h hinv ha
  | failOnRevealTimeout =>
    obtain ⟨a', ha, rfl⟩ := World.onAuction_ok hstep
    obtain ⟨hs, rfl⟩ := failOnRevealTimeout_ok ha
    have hrun : ¬World.isTerminal w.auction.state := by
      rcases hs with hs | hs
      · exact notTerminal hs (by decide)
      · exact notTerminal hs (by decide)
    have hcreated : w.auction.state ≠ .created := by
      rcases hs with hs | hs
      · rw [hs]
        decide
      · rw [hs]
        decide
    exact h.proceed hinv hrun hcreated (by simp) rfl rfl h.bidders

lemma saleGift_refused {c : Msg env × Call} {e : Revert} (h : step env w c = .error e) : saleGift env w c = 0 := by
  unfold saleGift
  rw [advance_of_error _ h]
  split
  · exact Nat.sub_self _
  · rfl

end Steps

/-! ### Whole runs -/

lemma exec_exact {env : Env} {w : World} {gifts : Nat} (h : Exact env gifts w) (calls : List (Msg env × Call)) :
    Exact env (gifts + saleGifts env w calls) (exec (step env) w calls) := by
  induction calls generalizing w gifts with
  | nil => exact h
  | cons c calls ih =>
    have hnext : Exact env (gifts + saleGift env w c) (advance (step env) w c) := by
      cases hstep : step env w c with
      | ok w' =>
        rw [advance_of_ok _ hstep]
        exact step_exact h hstep
      | error e =>
        rw [advance_of_error _ hstep, saleGift_refused hstep]
        exact h
    have hrest := ih hnext
    rw [Nat.add_assoc] at hrest
    exact hrest

lemma exact_initial (env : Env) {registry : CommitteeRegistry} {cfg : Config} {a : SealedBidAuction}
    (ha : initializeAuction registry cfg = .ok a) (sale quote : ERC20) :
    Exact env (sale.balanceOf env.self) ⟨a, registry, sale, quote⟩ := by
  obtain ⟨hinv, -⟩ := @invariant_initial env _ _ _ ha sale quote
  obtain ⟨-, rfl⟩ := initializeAuction_ok ha
  exact ⟨hinv, fun b hb => absurd hb List.not_mem_nil, (Nat.zero_add _).symm⟩

lemma nothing_owed {a : SealedBidAuction} (h : a.AllClaimed) : a.saleOwed = 0 := by
  have hpaid : ∀ b ∈ a.bids, isUnclaimed b = false := by
    intro b hb
    unfold isUnclaimed
    rw [h.bids b hb]
    rfl
  have hnone : sumWhere isUnclaimed a.tokensDue a.bids = 0 := by
    unfold sumWhere
    rw [List.filter_eq_nil_iff.mpr fun b hb => by rw [hpaid b hb]; exact Bool.false_ne_true]
    rfl
  rcases h.ended with hs | hs
  · rw [saleOwed_settled hs, hnone, h.unsold]
    rfl
  · unfold saleOwed
    rw [hs, h.unsold]
    rfl

/-- In every state reached the balance covers what is owed; and once everyone has claimed, nothing is left
exactly when nobody sent the contract tokens of its own accord and no settled share was rounded. -/
theorem sale_accounted_iff (env : Env) {registry : CommitteeRegistry} {cfg : Config} {a : SealedBidAuction}
    (ha : initializeAuction registry cfg = .ok a) (sale quote : ERC20) (calls : List (Msg env × Call)) :
    SaleAccounted env (exec (step env) ⟨a, registry, sale, quote⟩ calls) ↔
      ((exec (step env) ⟨a, registry, sale, quote⟩ calls).auction.AllClaimed →
        sale.balanceOf env.self = 0 ∧ saleGifts env ⟨a, registry, sale, quote⟩ calls = 0 ∧
          (exec (step env) ⟨a, registry, sale, quote⟩ calls).auction.NothingRounded) := by
  have hexact := exec_exact (exact_initial env ha sale quote) calls
  generalize hend : exec (step env) ⟨a, registry, sale, quote⟩ calls = w at hexact ⊢
  have hbalance := hexact.balance
  have ht := hexact.invariant.tallied
  have hdust : w.auction.dust = 0 ↔ w.auction.NothingRounded := by
    unfold dust NothingRounded
    by_cases hs : w.auction.state = .settled
    · have hwin := ht.winnings_le_sold
      have hwhole := sum_fill_eq_sold_iff (book w.auction.config w.auction.bids) w.auction.config.totalSupply
        w.auction.config.numTicks (fun o ho => ht.tick_lt ho) ht.accepted.supply_pos
      rw [if_pos hs]
      change (winnings w.auction.config w.auction.bids).sum = _ ↔ _ at hwhole
      rw [← hwhole]
      constructor
      · intro h _
        omega
      · intro h
        have := h hs
        omega
    · rw [if_neg hs]
      exact iff_of_true rfl fun h => absurd h hs
  constructor
  · rintro ⟨-, hempty⟩ hall
    have hzero := hempty hall
    rw [nothing_owed hall] at hbalance
    exact ⟨by omega, by omega, hdust.mp (by omega)⟩
  · intro h
    refine ⟨by omega, fun hall => ?_⟩
    obtain ⟨hsale, hgifts, hwhole⟩ := h hall
    rw [nothing_owed hall, hdust.mpr hwhole] at hbalance
    omega

/-! ### A sale that keeps a unit for good -/

/-- Three units for two bids of two units each, both at the reserve. -/
def dustConfig : Config := { sampleConfig with totalSupply := 3 }

def dustAuction : SealedBidAuction := { sampleAuction with config := dustConfig }

def dustWorld : World := ⟨dustAuction, sampleRegistry, sampleToken, sampleToken⟩

def dustLeaf (bidId : Nat) : Nat := revealLeaf sampleEnv bidId 2 0 bidId

def dustTree : Peal.SortedPairTree.HashTree := .node (.leaf (dustLeaf 0)) (.leaf (dustLeaf 1))

/-- Everyone bids, is settled and claims. -/
def dustCalls : List (Msg sampleEnv × Call) :=
  [(sampleMsg 20 1 seller_sender, .fund), (sampleMsg 20 10 seller_sender, .openCommit),
    (sampleMsg 40 11 bidder_sender, .commitBid (bidCommitment sampleEnv 40 2 0 0 1) 1 1 []),
    (sampleMsg 41 12 otherBidder_sender, .commitBid (bidCommitment sampleEnv 41 2 0 1 1) 1 1 []),
    (sampleRelay 20, .closeCommit),
    (sampleRelay 21, .registerRevealRoot (dustTree.root Peal.SortedPairTree.pairingHash) 2 [[7]]),
    (sampleRelay 22, .processReveals [⟨0, 2, 0, 0, 1, [dustLeaf 1]⟩, ⟨1, 2, 0, 1, 1, [dustLeaf 0]⟩]),
    (sampleRelay 23, .finalize), (sampleMsg 40 24 bidder_sender, .claim 0), (sampleMsg 41 25 otherBidder_sender, .claim 1),
    (sampleMsg 20 26 seller_sender, .claimUnsold)]

theorem sale_accounted_sample :
    SaleAccounted sampleEnv (exec (step sampleEnv) dustWorld (dustCalls.take 8)) ↔
      ((exec (step sampleEnv) dustWorld (dustCalls.take 8)).auction.AllClaimed →
        sampleToken.balanceOf 9 = 0 ∧ saleGifts sampleEnv dustWorld (dustCalls.take 8) = 0 ∧
          (exec (step sampleEnv) dustWorld (dustCalls.take 8)).auction.NothingRounded) :=
  sale_accounted_iff sampleEnv (show initializeAuction sampleRegistry dustConfig = .ok dustAuction from rfl)
    sampleToken sampleToken (dustCalls.take 8)

/-- Everyone has claimed, and one of the three sale units stays in the contract. -/
theorem sale_unit_left :
    initializeAuction sampleRegistry dustConfig = .ok dustAuction ∧
      (exec (step sampleEnv) dustWorld dustCalls).auction.AllClaimed ∧
      (exec (step sampleEnv) dustWorld dustCalls).sale.balanceOf 9 = 1 ∧
      ¬SaleAccounted sampleEnv (exec (step sampleEnv) dustWorld dustCalls) := by
  have hall : (exec (step sampleEnv) dustWorld dustCalls).auction.AllClaimed :=
    ⟨.inl (by decide +kernel), by decide +kernel, by decide +kernel⟩
  have hone : (exec (step sampleEnv) dustWorld dustCalls).sale.balanceOf 9 = 1 := by decide +kernel
  refine ⟨rfl, hall, hone, fun h => ?_⟩
  have hnone : (exec (step sampleEnv) dustWorld dustCalls).sale.balanceOf 9 = 0 := h.2 hall
  omega

end Peal.Auction
