import Peal.Auction.Calls

namespace Peal.Auction
open Peal.Fallible Peal.SortedPairTree Peal.Runs SealedBidAuction

/-! # What each accepted call requires and does -/

namespace SealedBidAuction

variable {env : Env} {a a' : SealedBidAuction} {msg : Msg env}

@[simp] lemma inState_eq_ok {expected : State} {u : Unit} :
    a.inState expected = .ok u ↔ a.state = expected := by
  simp [inState]

@[simp] lemma onlyIssuer_eq_ok {u : Unit} :
    onlyIssuer env a msg = .ok u ↔ msg.sender = a.config.issuer := by
  simp [onlyIssuer]

lemma openCommit_ok (h : a.openCommit env msg = .ok a') :
    a.state = .funded ∧ a' = { a with state := .commitOpen } := by
  simp only [openCommit, bind_eq_ok, inState_eq_ok, require_eq_ok, Except.ok.injEq] at h
  obtain ⟨-, hs, -, -, rfl⟩ := h
  exact ⟨hs, rfl⟩

lemma registerBatch_ok {c : Nat} (h : a.registerBatch c = .ok a') :
    a.state = .commitOpen ∧ a' = { a with batchCommitments := a.batchCommitments ++ [c] } := by
  simp only [registerBatch, bind_eq_ok, inState_eq_ok, Except.ok.injEq] at h
  obtain ⟨-, hs, rfl⟩ := h
  exact ⟨hs, rfl⟩

lemma closeCommit_ok (h : a.closeCommit env msg = .ok a') :
    a.state = .commitOpen ∧ ((a.bids = [] ∧ a' = { a with state := .failed }) ∨
      (a.bids ≠ [] ∧ a' = { a with state := .commitClosed })) := by
  simp only [closeCommit, bind_eq_ok, inState_eq_ok, require_eq_ok, Except.ok.injEq,
    committedBidCount, List.length_eq_zero_iff] at h
  obtain ⟨-, hs, -, -, rfl⟩ := h
  refine ⟨hs, ?_⟩
  by_cases hb : a.bids = []
  · rw [if_pos hb]
    exact Or.inl ⟨hb, rfl⟩
  · rw [if_neg hb]
    exact Or.inr ⟨hb, rfl⟩

lemma registerRevealRoot_ok {registry : CommitteeRegistry} {root bidCount : Nat}
    {signatures : List (List Nat)}
    (h : a.registerRevealRoot env msg registry root bidCount signatures = .ok a') :
    a.state = .commitClosed ∧ a' = { a with revealRoot := root, state := .revealing } := by
  simp only [registerRevealRoot, bind_eq_ok, inState_eq_ok, require_eq_ok, Except.ok.injEq] at h
  obtain ⟨-, hs, -, -, -, -, -, -, -, -, -, -, rfl⟩ := h
  exact ⟨hs, rfl⟩

lemma failOnRevealTimeout_ok (h : a.failOnRevealTimeout env msg = .ok a') :
    (a.state = .commitClosed ∨ a.state = .revealing) ∧ a' = { a with state := .failed } := by
  simp only [failOnRevealTimeout, bind_eq_ok, require_eq_ok, Except.ok.injEq] at h
  obtain ⟨-, -, -, hs, rfl⟩ := h
  exact ⟨hs, rfl⟩

lemma disputeVoid_ok {bidId quantity tick salt bidVersion : Nat}
    (h : a.disputeVoid env bidId quantity tick salt bidVersion = .ok a') :
    a.state = .revealing ∧ (a.bid bidId).voided = true ∧
      bidCommitment env (a.bid bidId).bidder quantity tick salt bidVersion =
        (a.bid bidId).commitment ∧ a' = { a with state := .failed } := by
  simp only [disputeVoid, bind_eq_ok, inState_eq_ok, require_eq_ok, Except.ok.injEq] at h
  obtain ⟨-, hs, -, hv, -, hc, rfl⟩ := h
  exact ⟨hs, hv, hc, rfl⟩

lemma bid_written {i : Nat} (h : (a.bid i).bidder ≠ 0) : a.bids[i]? = some (a.bid i) := by
  unfold bid at h ⊢
  rw [List.getD_eq_getElem?_getD] at h ⊢
  cases hb : a.bids[i]? with
  | some b => rfl
  | none =>
    rw [hb] at h
    exact absurd rfl h

lemma bid_of_getElem? {i : Nat} {b : Bid} (h : a.bids[i]? = some b) : a.bid i = b := by
  unfold bid
  rw [List.getD_eq_getElem?_getD, h]
  rfl

/-- The auction after an attested plaintext that does not open the bid's commitment. -/
def afterVoid (env : Env) (a : SealedBidAuction) (msg : Msg env) (bidId : Nat) (b : Bid) :
    SealedBidAuction :=
  { a with
    bids := a.bids.set bidId { b with revealed := true, voided := true }
    processedBidCount := a.processedBidCount + 1
    voidedBidCount := a.voidedBidCount + 1
    lastVoidAt := msg.timestamp % 2 ^ 64 }

/-- The auction after a plaintext that does, counted as demand when it is eligible. -/
def afterReveal (a : SealedBidAuction) (e : RevealEntry) (b : Bid) (eligible : Bool) :
    SealedBidAuction :=
  { a with
    bids := a.bids.set e.bidId { b with revealed := true, quantity := e.quantity, tick := e.tick }
    processedBidCount := a.processedBidCount + 1
    demandByTick := if eligible then
      Function.update a.demandByTick e.tick (a.demandByTick e.tick + e.quantity) else a.demandByTick }

def opensCommitment (env : Env) (b : Bid) (e : RevealEntry) : Prop :=
  bidCommitment env b.bidder e.quantity e.tick e.salt e.bidVersion = b.commitment

instance (b : Bid) (e : RevealEntry) : Decidable (opensCommitment env b e) :=
  inferInstanceAs (Decidable (_ = _))

/-- What `_processOne` checks of an entry before it looks at the commitment. -/
structure Processable (env : Env) (a : SealedBidAuction) (e : RevealEntry) (b : Bid) : Prop where
  found : a.bids[e.bidId]? = some b
  bidder_ne_zero : b.bidder ≠ 0
  fresh : b.revealed = false
  tick_lt : e.tick < a.config.numTicks
  proof : climb env.keccak256 (revealLeaf env e.bidId e.quantity e.tick e.salt) e.proof = a.revealRoot
  counter : a.processedBidCount + 1 < 2 ^ 32

theorem processOne_eq_ok {e : RevealEntry} :
    processOne env a msg e = .ok a' ↔ ∃ b, Processable env a e b ∧
      ((¬opensCommitment env b e ∧ a.voidedBidCount + 1 < 2 ^ 32 ∧
          a' = afterVoid env a msg e.bidId b) ∨
        (opensCommitment env b e ∧ ∃ eligible, isEligible a.config b e.quantity e.tick = .ok eligible ∧
          (eligible = true → a.demandByTick e.tick + e.quantity < 2 ^ 256) ∧
          a' = afterReveal a e b eligible)) := by
  constructor
  · intro h
    simp only [processOne, bind_eq_ok, require_eq_ok, checked_eq_ok] at h
    obtain ⟨-, hbidder, -, hfresh, -, htick, -, hproof, n, ⟨hn, rfl⟩, h⟩ := h
    refine ⟨a.bid e.bidId, ⟨bid_written hbidder, hbidder, hfresh, htick, hproof, hn⟩, ?_⟩
    split_ifs at h with hc
    · simp only [voidBid, bind_eq_ok, checked_eq_ok, Except.ok.injEq] at h
      obtain ⟨v, ⟨hv, rfl⟩, rfl⟩ := h
      exact Or.inl ⟨hc, hv, rfl⟩
    · simp only [recordBid, bind_eq_ok] at h
      obtain ⟨eligible, hel, h⟩ := h
      refine Or.inr ⟨not_not.mp hc, eligible, hel, ?_⟩
      cases eligible with
      | true =>
        simp only [if_true, bind_eq_ok, uint256_eq_ok, Except.ok.injEq] at h
        obtain ⟨d, ⟨hd, rfl⟩, rfl⟩ := h
        exact ⟨fun _ => hd, rfl⟩
      | false =>
        simp only [Bool.false_eq_true, if_false, Except.ok.injEq] at h
        subst h
        exact ⟨fun h => absurd h (by decide), rfl⟩
  · rintro ⟨b, hp, h⟩
    have hb := bid_of_getElem? hp.found
    simp only [processOne, bind_eq_ok, require_eq_ok, checked_eq_ok, hb]
    refine ⟨(), hp.bidder_ne_zero, (), hp.fresh, (), hp.tick_lt, (), hp.proof, _, ⟨hp.counter, rfl⟩, ?_⟩
    unfold opensCommitment at h
    rcases h with ⟨hc, hv, rfl⟩ | ⟨hc, eligible, hel, hd, rfl⟩
    · rw [if_pos hc]
      simp only [voidBid, bind_eq_ok, checked_eq_ok, Except.ok.injEq]
      exact ⟨_, ⟨hv, rfl⟩, rfl⟩
    · rw [if_neg (not_not.mpr hc)]
      simp only [recordBid, bind_eq_ok]
      refine ⟨eligible, hel, ?_⟩
      cases eligible with
      | true =>
        simp only [if_true, bind_eq_ok, uint256_eq_ok, Except.ok.injEq]
        exact ⟨_, ⟨hd rfl, rfl⟩, rfl⟩
      | false => rfl

/-- The dispute window, as `finalize` checks it. -/
def WindowPassed (a : SealedBidAuction) (timestamp : Nat) : Prop :=
  0 < a.voidedBidCount → a.lastVoidAt + a.config.voidDisputeWindow < 2 ^ 64 ∧
    a.lastVoidAt + a.config.voidDisputeWindow ≤ timestamp

@[simp] lemma disputeWindowPassed_eq_ok {u : Unit} :
    disputeWindowPassed env a msg = .ok u ↔ a.WindowPassed msg.timestamp := by
  unfold disputeWindowPassed WindowPassed
  by_cases hv : 0 < a.voidedBidCount
  · rw [if_pos hv]
    simp only [bind_eq_ok, checked_eq_ok, require_eq_ok]
    constructor
    · rintro ⟨n, ⟨hn, rfl⟩, hle⟩
      exact fun _ => ⟨hn, hle⟩
    · intro h
      exact ⟨_, ⟨(h hv).1, rfl⟩, (h hv).2⟩
  · rw [if_neg hv]
    simp [hv]

/-- What the sale at result `r` charges in all, and the price it charges. -/
def priceOf (cfg : Config) (r : Result) : Nat := cfg.reservePrice + r.clearingTick * cfg.tickSize

def grossOf (cfg : Config) (r : Result) : Nat :=
  r.supplySold * priceOf cfg r / 10 ^ cfg.saleDecimals

def feeOf (cfg : Config) (r : Result) : Nat := grossOf cfg r * cfg.protocolFeeBps / 10000

/-- The arithmetic of the settlement fits its words. -/
structure SettlementFits (cfg : Config) (r : Result) : Prop where
  price : priceOf cfg r < 2 ^ 256
  unit : 10 ^ cfg.saleDecimals < 2 ^ 256
  gross : grossOf cfg r < 2 ^ 256
  fee : feeOf cfg r < 2 ^ 256

def afterSettle (a : SealedBidAuction) (r : Result) : SealedBidAuction :=
  { a with
    clearing := r
    clearingPrice := priceOf a.config r
    grossProceeds := grossOf a.config r
    protocolFee := feeOf a.config r
    state := .settled }

lemma settle_eq_ok {r : Result} :
    a.settle r = .ok a' ↔ SettlementFits a.config r ∧ a' = a.afterSettle r := by
  simp only [settle, bind_eq_ok, priceAt_eq_ok, costFloor_eq_ok, feeOn_eq_ok, Except.ok.injEq]
  constructor
  · rintro ⟨p, ⟨hp, rfl⟩, g, ⟨hu, hg, rfl⟩, f, ⟨hf, rfl⟩, rfl⟩
    exact ⟨⟨hp, hu, hg, hf⟩, rfl⟩
  · rintro ⟨h, rfl⟩
    exact ⟨_, ⟨h.price, rfl⟩, _, ⟨h.unit, h.gross, rfl⟩, _, ⟨h.fee, rfl⟩, rfl⟩

theorem finalize_eq_ok : finalize env a msg = .ok a' ↔
    a.state = .revealing ∧ a.WindowPassed msg.timestamp ∧ a.processedBidCount = a.bids.length ∧
      ∃ r, findClearingTick a.demand a.config.totalSupply = .ok r ∧
        ((r.cleared = true ∧ SettlementFits a.config r ∧ a' = a.afterSettle r) ∨
          (r.cleared = false ∧ a' = { a with state := .failed })) := by
  simp only [finalize, bind_eq_ok, inState_eq_ok, disputeWindowPassed_eq_ok, require_eq_ok,
    exists_const]
  constructor
  · rintro ⟨hs, hw, hp, r, hr, h⟩
    refine ⟨hs, hw, hp, r, hr, ?_⟩
    split_ifs at h with hc
    · exact Or.inl ⟨hc, settle_eq_ok.mp h⟩
    · exact Or.inr ⟨by simpa using hc, (Except.ok.inj h).symm⟩
  · rintro ⟨hs, hw, hp, r, hr, h⟩
    refine ⟨hs, hw, hp, r, hr, ?_⟩
    rcases h with ⟨hc, hset⟩ | ⟨hc, rfl⟩
    · rw [if_pos hc]
      exact settle_eq_ok.mpr hset
    · rw [hc]
      rfl

end SealedBidAuction

/-! ### Calls that move tokens -/

namespace World

variable {env : Env} {w w' : World} {msg : Msg env}

lemma onAuction_ok {x : Except Revert SealedBidAuction} (h : w.onAuction x = .ok w') :
    ∃ a', x = .ok a' ∧ w' = { w with auction := a' } := by
  simp only [onAuction, bind_eq_ok] at h
  obtain ⟨a', ha, heq⟩ := h
  exact ⟨a', ha, (Except.ok.inj heq).symm⟩

lemma fund_ok (h : w.fund env msg = .ok w') :
    w.auction.state = .created ∧ ∃ sale,
      sale.balanceOf env.self = w.sale.balanceOf env.self + w.auction.config.totalSupply ∧
      w' = { w with sale := sale, auction := { w.auction with state := .funded } } := by
  simp only [fund, bind_eq_ok, inState_eq_ok, checkedSub_eq_ok, require_eq_ok, Except.ok.injEq] at h
  obtain ⟨-, hs, sale, -, n, ⟨hle, rfl⟩, -, heq, rfl⟩ := h
  exact ⟨hs, sale, by omega, rfl⟩

lemma cancel_ok (h : w.cancel env msg = .ok w') :
    ∃ sale, (w.auction.state = .created ∨ w.auction.state = .funded ∨
        (w.auction.state = .commitOpen ∧ w.auction.bids = [])) ∧
      w' = { w with sale := sale, auction := { w.auction with state := .cancelled } } := by
  simp only [cancel, bind_eq_ok, onlyIssuer_eq_ok] at h
  obtain ⟨-, -, h⟩ := h
  split_ifs at h with hcr hfu
  · exact ⟨w.sale, Or.inl hcr, (Except.ok.inj h).symm⟩
  · simp only [paySale, bind_eq_ok, Except.ok.injEq] at h
    obtain ⟨sale, -, rfl⟩ := h
    refine ⟨sale, Or.inr ?_, rfl⟩
    rcases hfu with hfu | ⟨hco, hb⟩
    · exact Or.inl hfu
    · exact Or.inr ⟨hco, List.length_eq_zero_iff.mp hb⟩

/-- The bid slot that a commitment writes. -/
def newBid (msg : Msg env) (commitment ciphertextHash escrowAmount : Nat) : Bid :=
  ⟨msg.sender, commitment, ciphertextHash, escrowAmount, msg.blockNumber % 2 ^ 64,
    false, false, false, 0, 0⟩

lemma commitBid_ok {commitment ciphertextHash escrowAmount : Nat} {allowlistProof : List Nat}
    (h : w.commitBid env msg commitment ciphertextHash escrowAmount allowlistProof = .ok w') :
    w.auction.state = .commitOpen ∧ w.auction.bids.length + 1 < 2 ^ 32 ∧ ∃ quote,
      quote.balanceOf env.self = w.quote.balanceOf env.self + escrowAmount ∧
      w' = { w with quote := quote, auction := { w.auction with
        bids := w.auction.bids ++ [newBid msg commitment ciphertextHash escrowAmount] } } := by
  simp only [commitBid, bind_eq_ok, inState_eq_ok, checkedSub_eq_ok, require_eq_ok, checked_eq_ok,
    Except.ok.injEq, committedBidCount] at h
  obtain ⟨-, hs, -, -, -, -, -, -, -, -, -, -, -, -, quote, -, n, ⟨hle, rfl⟩, -, heq, -, ⟨hlen, -⟩, rfl⟩ := h
  exact ⟨hs, hlen, quote, by omega, rfl⟩

lemma commitBidWithPermit_ok {commitment ciphertextHash escrowAmount : Nat}
    {allowlistProof : List Nat} {accepted : Bool}
    (h : w.commitBidWithPermit env msg commitment ciphertextHash escrowAmount allowlistProof accepted =
      .ok w') :
    w.auction.state = .commitOpen ∧ w.auction.bids.length + 1 < 2 ^ 32 ∧ ∃ quote,
      quote.balanceOf env.self = w.quote.balanceOf env.self + escrowAmount ∧
      w' = { w with quote := quote, auction := { w.auction with
        bids := w.auction.bids ++ [newBid msg commitment ciphertextHash escrowAmount] } } := by
  simp only [commitBidWithPermit, bind_eq_ok, inState_eq_ok] at h
  obtain ⟨-, -, h⟩ := h
  cases accepted with
  | true =>
    obtain ⟨hs, hlen, quote, hq, rfl⟩ := commitBid_ok h
    exact ⟨hs, hlen, quote, hq, rfl⟩
  | false => exact commitBid_ok h

lemma payQuoteIfAny_ok {recipient amount : Nat} (h : w.payQuoteIfAny env recipient amount = .ok w') :
    ∃ quote, w.quote.balanceOf env.self ≤ quote.balanceOf env.self + amount ∧
      w' = { w with quote := quote } := by
  unfold payQuoteIfAny at h
  split_ifs at h with hpos
  · simp only [payQuote, bind_eq_ok, ERC20.transfer_eq_ok, Except.ok.injEq] at h
    obtain ⟨quote, ⟨-, -, rfl⟩, rfl⟩ := h
    exact ⟨_, ERC20.move_sender_ge _ _ _ _, rfl⟩
  · exact ⟨w.quote, by omega, (Except.ok.inj h).symm⟩

lemma paySaleIfAny_ok {recipient amount : Nat} (h : w.paySaleIfAny env recipient amount = .ok w') :
    ∃ sale, w.sale.balanceOf env.self ≤ sale.balanceOf env.self + amount ∧
      w' = { w with sale := sale } := by
  unfold paySaleIfAny at h
  split_ifs at h with hpos
  · simp only [paySale, bind_eq_ok, ERC20.transfer_eq_ok, Except.ok.injEq] at h
    obtain ⟨sale, ⟨-, -, rfl⟩, rfl⟩ := h
    exact ⟨_, ERC20.move_sender_ge _ _ _ _, rfl⟩
  · exact ⟨w.sale, by omega, (Except.ok.inj h).symm⟩

lemma payQuoteIfAny_succeeds {recipient amount : Nat} (hr : 0 < amount → recipient ≠ 0)
    (h : amount ≤ w.quote.balanceOf env.self) : Succeeds (w.payQuoteIfAny env recipient amount) := by
  unfold payQuoteIfAny
  split_ifs with hpos
  · simp only [payQuote, succeeds_bind, ERC20.transfer_eq_ok]
    exact ⟨_, ⟨hr hpos, h, rfl⟩, _, rfl⟩
  · exact ⟨w, rfl⟩

lemma paySaleIfAny_succeeds {recipient amount : Nat} (hr : 0 < amount → recipient ≠ 0)
    (h : amount ≤ w.sale.balanceOf env.self) : Succeeds (w.paySaleIfAny env recipient amount) := by
  unfold paySaleIfAny
  split_ifs with hpos
  · simp only [paySale, succeeds_bind, ERC20.transfer_eq_ok]
    exact ⟨_, ⟨hr hpos, h, rfl⟩, _, rfl⟩
  · exact ⟨w, rfl⟩

def isTerminal (s : State) : Prop := s = .settled ∨ s = .failed ∨ s = .cancelled

/-- The auction once bid `i` has been paid out. -/
def afterClaim (a : SealedBidAuction) (i : Nat) (b : Bid) : SealedBidAuction :=
  { a with bids := a.bids.set i { b with claimed := true } }

lemma claim_ok {i tokens refund : Nat} (h : w.claim env i = .ok (w', tokens, refund)) :
    ∃ b, w.auction.bids[i]? = some b ∧ b.claimed = false ∧ isTerminal w.auction.state ∧
      w.auction.claimAmounts b = .ok (tokens, refund) ∧ ∃ sale quote,
        w.sale.balanceOf env.self ≤ sale.balanceOf env.self + tokens ∧
        w.quote.balanceOf env.self ≤ quote.balanceOf env.self + refund ∧
        w' = { w with sale := sale, quote := quote, auction := afterClaim w.auction i b } := by
  simp only [claim, bind_eq_ok, require_eq_ok] at h
  obtain ⟨-, hbidder, -, hclaimed, -, hterm, ⟨t, r⟩, hamounts, w₁, h₁, w₂, h₂, heq⟩ := h
  simp only [Except.ok.injEq, Prod.mk.injEq] at heq
  obtain ⟨rfl, rfl, rfl⟩ := heq
  obtain ⟨sale, hsale, rfl⟩ := paySaleIfAny_ok h₁
  obtain ⟨quote, hquote, rfl⟩ := payQuoteIfAny_ok h₂
  exact ⟨_, bid_written hbidder, hclaimed, hterm, hamounts, sale, quote, hsale, hquote, rfl⟩

lemma claim_succeeds {i tokens refund : Nat} {b : Bid} (hb : w.auction.bids[i]? = some b)
    (hbidder : b.bidder ≠ 0) (hclaimed : b.claimed = false) (hterm : isTerminal w.auction.state)
    (hamounts : w.auction.claimAmounts b = .ok (tokens, refund))
    (hsale : tokens ≤ w.sale.balanceOf env.self) (hquote : refund ≤ w.quote.balanceOf env.self) :
    ∃ w', w.claim env i = .ok (w', tokens, refund) := by
  have hbid := bid_of_getElem? hb
  obtain ⟨w₁, h₁⟩ := paySaleIfAny_succeeds (fun _ => hbidder)
    (show tokens ≤ ({ w with auction := afterClaim w.auction i b } : World).sale.balanceOf env.self from hsale)
  obtain ⟨sale, -, heq⟩ := paySaleIfAny_ok h₁
  obtain ⟨w₂, h₂⟩ := payQuoteIfAny_succeeds (w := w₁) (fun _ => hbidder)
    (show refund ≤ w₁.quote.balanceOf env.self by rw [heq]; exact hquote)
  refine ⟨w₂, ?_⟩
  simp only [claim, bind_eq_ok, require_eq_ok, hbid]
  exact ⟨(), hbidder, (), hclaimed, (), hterm, _, hamounts, w₁, h₁, w₂, h₂, rfl⟩

lemma claimProceeds_ok (h : w.claimProceeds env msg = .ok w') :
    w.auction.state = .settled ∧ w.auction.issuerProceedsClaimed = false ∧
      w.auction.protocolFee ≤ w.auction.grossProceeds ∧ ∃ quote,
        w.quote.balanceOf env.self ≤ quote.balanceOf env.self + w.auction.grossProceeds ∧
        w' = { w with quote := quote, auction := { w.auction with issuerProceedsClaimed := true } } := by
  simp only [claimProceeds, bind_eq_ok, onlyIssuer_eq_ok, inState_eq_ok, require_eq_ok,
    checkedSub_eq_ok] at h
  obtain ⟨-, -, -, hs, -, hunclaimed, net, ⟨hle, rfl⟩, w₁, h₁, h₂⟩ := h
  obtain ⟨quote₁, hq₁, rfl⟩ := payQuoteIfAny_ok h₁
  obtain ⟨quote₂, hq₂, rfl⟩ := payQuoteIfAny_ok h₂
  dsimp only at hq₁ hq₂
  exact ⟨hs, hunclaimed, hle, quote₂, by omega, rfl⟩

lemma claimProceeds_succeeds (hissuer : msg.sender = w.auction.config.issuer)
    (hs : w.auction.state = .settled) (hunclaimed : w.auction.issuerProceedsClaimed = false)
    (hfee : w.auction.protocolFee ≤ w.auction.grossProceeds)
    (hrecipient : 0 < w.auction.protocolFee → w.auction.config.feeRecipient ≠ 0)
    (hissuer_ne : w.auction.config.issuer ≠ 0)
    (hquote : w.auction.grossProceeds ≤ w.quote.balanceOf env.self) :
    Succeeds (w.claimProceeds env msg) := by
  let marked : World := { w with auction := { w.auction with issuerProceedsClaimed := true } }
  obtain ⟨w₁, h₁⟩ := payQuoteIfAny_succeeds hrecipient
    (show w.auction.protocolFee ≤ marked.quote.balanceOf env.self from hfee.trans hquote)
  obtain ⟨quote, hq, heq⟩ := payQuoteIfAny_ok h₁
  have hleft : w.auction.grossProceeds - w.auction.protocolFee ≤ w₁.quote.balanceOf env.self := by
    rw [heq]
    change w.quote.balanceOf env.self ≤ _ at hq
    dsimp only
    omega
  obtain ⟨w₂, h₂⟩ := payQuoteIfAny_succeeds (fun _ => hissuer_ne) hleft
  refine ⟨w₂, ?_⟩
  simp only [claimProceeds, bind_eq_ok, onlyIssuer_eq_ok, inState_eq_ok, require_eq_ok,
    checkedSub_eq_ok]
  exact ⟨(), hissuer, (), hs, (), hunclaimed, _, ⟨hfee, rfl⟩, w₁, h₁, h₂⟩

lemma claimUnsold_ok (h : w.claimUnsold env msg = .ok w') :
    w.auction.issuerUnsoldClaimed = false ∧ ∃ sale,
      ((w.auction.state = .settled ∧ w.sale.balanceOf env.self ≤ sale.balanceOf env.self +
          (w.auction.config.totalSupply - w.auction.clearing.supplySold)) ∨
        (w.auction.state = .failed ∧ w.sale.balanceOf env.self ≤
          sale.balanceOf env.self + w.auction.config.totalSupply)) ∧
      w' = { w with sale := sale, auction := { w.auction with issuerUnsoldClaimed := true } } := by
  simp only [claimUnsold, bind_eq_ok, onlyIssuer_eq_ok, require_eq_ok, checkedSub_eq_ok] at h
  obtain ⟨-, -, -, hs, -, hunclaimed, unsold, ⟨-, rfl⟩, h⟩ := h
  obtain ⟨sale, hsale, rfl⟩ := paySaleIfAny_ok h
  refine ⟨hunclaimed, sale, ?_, rfl⟩
  rcases hs with hs | hs
  · rw [if_pos hs] at hsale
    exact Or.inl ⟨hs, hsale⟩
  · rw [if_neg (by rw [hs]; decide)] at hsale
    exact Or.inr ⟨hs, hsale⟩

end World

end Peal.Auction
