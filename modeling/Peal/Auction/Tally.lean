import Peal.Auction.Effects
import Peal.Library.Rows

namespace Peal.Auction
open Peal.Fallible Peal.UniformPrice Peal.SortedPairTree Peal.Runs Peal.Rows SealedBidAuction

/-! # The order book behind the recorded bids -/

/-- The checks of `initialize` that later calls rely on. -/
structure Accepted (cfg : Config) : Prop where
  issuer_ne_zero : cfg.issuer ≠ 0
  supply_pos : 0 < cfg.totalSupply
  ticks_pos : 0 < cfg.numTicks
  ticks_le : cfg.numTicks ≤ maxTicks
  fee_le : cfg.protocolFeeBps ≤ 1000
  fee_recipient : cfg.feeRecipient ≠ 0 ∨ cfg.protocolFeeBps = 0

lemma initializeAuction_ok {registry : CommitteeRegistry} {cfg : Config} {a : SealedBidAuction}
    (h : initializeAuction registry cfg = .ok a) : Accepted cfg ∧
      a = ⟨cfg, .created, [], 0, 0, 0, 0, default, 0, 0, 0, false, false, fun _ => 0, []⟩ := by
  simp only [initializeAuction, bind_eq_ok, require_eq_ok, Except.ok.injEq] at h
  obtain ⟨-, hi, -, -, -, -, -, hs, -, ht, -, -, -, -, -, -, -, -, -, hf, -, hr, -, -, rfl⟩ := h
  exact ⟨⟨hi, hs, ht.1, ht.2, hf, hr⟩, rfl⟩

/-- A bid stands in the book when it was revealed, not voided and found eligible. -/
def counts (cfg : Config) (b : Bid) : Bool :=
  b.revealed && !b.voided && (isEligible cfg b b.quantity b.tick).toOption == some true

def standing (cfg : Config) (b : Bid) : Option Order :=
  if counts cfg b then some ⟨b.quantity, b.tick⟩ else none

def book (cfg : Config) (bids : List Bid) : List Order := bids.filterMap (standing cfg)

lemma counts_iff {cfg : Config} {b : Bid} : counts cfg b = true ↔
    b.revealed = true ∧ b.voided = false ∧ isEligible cfg b b.quantity b.tick = .ok true := by
  simp [counts, toOption_eq_some, and_assoc]

lemma isEligible_true {cfg : Config} {b : Bid} {qty tick : Nat}
    (h : isEligible cfg b qty tick = .ok true) :
    ∃ needed, escrowFor qty cfg.reservePrice cfg.tickSize tick cfg.saleDecimals = .ok needed ∧
      needed ≤ b.escrow := by
  unfold isEligible at h
  split_ifs at h with hmin hmax
  · exact absurd (Except.ok.inj h) (by decide)
  · exact absurd (Except.ok.inj h) (by decide)
  · simpa only [bind_eq_ok, Except.ok.injEq, decide_eq_true_eq] using h

/-- The recorded demand is the book's, and every recorded plaintext passed its checks. -/
structure Tallied (a : SealedBidAuction) : Prop where
  accepted : Accepted a.config
  bidder_ne_zero : ∀ b ∈ a.bids, b.bidder ≠ 0
  void_revealed : ∀ b ∈ a.bids, b.voided = true → b.revealed = true
  checked : ∀ b ∈ a.bids, b.revealed = true → b.voided = false → b.tick < a.config.numTicks ∧
    ∃ eligible, isEligible a.config b b.quantity b.tick = .ok eligible
  demand : ∀ t, a.demandByTick t = demandAt (book a.config a.bids) t
  processed : a.processedBidCount = a.bids.countP Bid.revealed
  length_lt : a.bids.length < 2 ^ 32

namespace Tallied

lemma of_same {a a' : SealedBidAuction} (h : Tallied a) (hc : a'.config = a.config)
    (hb : a'.bids = a.bids) (hd : a'.demandByTick = a.demandByTick)
    (hp : a'.processedBidCount = a.processedBidCount) : Tallied a' := by
  cases a
  cases a'
  dsimp only at hc hb hd hp
  subst hc hb hd hp
  exact ⟨h.1, h.2, h.3, h.4, h.5, h.6, h.7⟩

lemma commit {a : SealedBidAuction} (h : Tallied a) {b : Bid} (hlen : a.bids.length + 1 < 2 ^ 32)
    (hbidder : b.bidder ≠ 0) (hr : b.revealed = false) (hv : b.voided = false) :
    Tallied { a with bids := a.bids ++ [b] } := by
  have hnone : standing a.config b = none := by
    unfold standing counts
    rw [hr]
    rfl
  have hbook : book a.config (a.bids ++ [b]) = book a.config a.bids := by
    unfold book
    rw [List.filterMap_append, List.filterMap_cons, hnone]
    simp
  refine ⟨h.accepted, ?_, ?_, ?_, ?_, ?_, ?_⟩
  · intro b' hb'
    rcases List.mem_append.mp hb' with hmem | hmem
    · exact h.bidder_ne_zero b' hmem
    · rw [List.mem_singleton.mp hmem]
      exact hbidder
  · intro b' hb' hvoid
    rcases List.mem_append.mp hb' with hmem | hmem
    · exact h.void_revealed b' hmem hvoid
    · rw [List.mem_singleton.mp hmem, hv] at hvoid
      exact absurd hvoid (by decide)
  · intro b' hb' hrev
    rcases List.mem_append.mp hb' with hmem | hmem
    · exact h.checked b' hmem hrev
    · rw [List.mem_singleton.mp hmem, hr] at hrev
      exact absurd hrev (by decide)
  · intro t
    change a.demandByTick t = demandAt (book a.config (a.bids ++ [b])) t
    rw [hbook]
    exact h.demand t
  · change a.processedBidCount = (a.bids ++ [b]).countP Bid.revealed
    rw [List.countP_append, List.countP_singleton, hr, h.processed]
    simp
  · simpa using hlen

lemma set_same {a : SealedBidAuction} (h : Tallied a) {i : Nat} {b b' : Bid}
    (hb : a.bids[i]? = some b) (hbidder : b'.bidder = b.bidder) (hr : b'.revealed = b.revealed)
    (hv : b'.voided = b.voided) (hq : b'.quantity = b.quantity) (ht : b'.tick = b.tick)
    (he : b'.escrow = b.escrow) : Tallied { a with bids := a.bids.set i b' } := by
  have hmem : b ∈ a.bids := List.mem_of_getElem? hb
  have helig : isEligible a.config b' b'.quantity b'.tick = isEligible a.config b b.quantity b.tick := by
    unfold isEligible
    rw [hq, ht, he]
  have hstand : standing a.config b' = standing a.config b := by
    unfold standing counts
    rw [helig, hr, hv, hq, ht]
  refine ⟨h.accepted, ?_, ?_, ?_, ?_, ?_, ?_⟩
  · exact forall_mem_set h.bidder_ne_zero (by rw [hbidder]; exact h.bidder_ne_zero b hmem)
  · exact forall_mem_set h.void_revealed (by rw [hr, hv]; exact h.void_revealed b hmem)
  · exact forall_mem_set h.checked (by rw [helig, hr, hv, ht]; exact h.checked b hmem)
  · intro t
    change a.demandByTick t = demandAt (book a.config (a.bids.set i b')) t
    rw [h.demand t]
    unfold book
    rw [filterMap_set_eq hb hstand]
  · change a.processedBidCount = (a.bids.set i b').countP Bid.revealed
    rw [countP_set_eq hb hr]
    exact h.processed
  · change (a.bids.set i b').length < 2 ^ 32
    rw [List.length_set]
    exact h.length_lt

lemma standing_unrevealed {cfg : Config} {b : Bid} (h : b.revealed = false) :
    standing cfg b = none := by
  unfold standing counts
  rw [h]
  rfl

lemma afterVoid {env : Env} {a : SealedBidAuction} (msg : Msg env) (h : Tallied a) {i : Nat} {b : Bid}
    (hb : a.bids[i]? = some b) (hr : b.revealed = false) :
    Tallied (SealedBidAuction.afterVoid env a msg i b) := by
  have hmem : b ∈ a.bids := List.mem_of_getElem? hb
  have hstand : standing a.config { b with revealed := true, voided := true } = standing a.config b := by
    rw [standing_unrevealed hr]
    unfold standing counts
    simp
  refine ⟨h.accepted, ?_, ?_, ?_, ?_, ?_, ?_⟩
  · exact forall_mem_set h.bidder_ne_zero (h.bidder_ne_zero b hmem)
  · exact forall_mem_set h.void_revealed (fun _ => rfl)
  · exact forall_mem_set h.checked (fun _ hv => absurd hv (by simp))
  · intro t
    change a.demandByTick t = demandAt (book a.config (a.bids.set i _)) t
    rw [h.demand t]
    unfold book
    rw [filterMap_set_eq hb hstand]
  · change a.processedBidCount + 1 = (a.bids.set i _).countP Bid.revealed
    rw [countP_set_add hb hr rfl, h.processed]
  · change (a.bids.set i _).length < 2 ^ 32
    rw [List.length_set]
    exact h.length_lt

lemma demandAt_book_reveal {cfg : Config} {bids : List Bid} {i : Nat} {b b' : Bid}
    (hb : bids[i]? = some b) (hr : b.revealed = false) (t : Nat) :
    demandAt (book cfg (bids.set i b')) t = demandAt (book cfg bids) t +
      if counts cfg b' = true ∧ b'.tick = t then b'.quantity else 0 := by
  obtain ⟨front, back, hrows, -, hset⟩ := set_split hb
  unfold book demandAt
  rw [hset, hrows, List.filterMap_append, List.filterMap_append, List.filterMap_cons,
    List.filterMap_cons, standing_unrevealed hr]
  unfold standing
  by_cases hc : counts cfg b'
  · simp only [hc, if_true, quantityWhere_append, quantityWhere_cons, beq_iff_eq, true_and]
    omega
  · simp only [hc, Bool.false_eq_true, if_false, quantityWhere_append, false_and]
    omega

lemma afterReveal {a : SealedBidAuction} (h : Tallied a) {e : RevealEntry} {b : Bid}
    (hb : a.bids[e.bidId]? = some b) (hr : b.revealed = false) (ht : e.tick < a.config.numTicks)
    {eligible : Bool} (hel : isEligible a.config b e.quantity e.tick = .ok eligible) :
    Tallied (SealedBidAuction.afterReveal a e b eligible) := by
  have hmem : b ∈ a.bids := List.mem_of_getElem? hb
  have hnotvoid : b.voided = false := by
    by_contra hv
    have := h.void_revealed b hmem (by simpa using hv)
    rw [hr] at this
    exact absurd this (by decide)
  have hcounts : counts a.config { b with revealed := true, quantity := e.quantity, tick := e.tick } =
      eligible := by
    have hel' : isEligible a.config { b with revealed := true, quantity := e.quantity, tick := e.tick }
        e.quantity e.tick = .ok eligible := hel
    unfold counts
    rw [hel', hnotvoid]
    cases eligible <;> rfl
  refine ⟨h.accepted, ?_, ?_, ?_, ?_, ?_, ?_⟩
  · exact forall_mem_set h.bidder_ne_zero (h.bidder_ne_zero b hmem)
  · exact forall_mem_set h.void_revealed (fun _ => rfl)
  · exact forall_mem_set h.checked (fun _ _ => ⟨ht, eligible, hel⟩)
  · intro t
    change (if eligible then _ else _ : Nat → Nat) t = demandAt (book a.config (a.bids.set e.bidId _)) t
    rw [demandAt_book_reveal hb hr, hcounts, ← h.demand t]
    cases eligible with
    | false => simp
    | true =>
      by_cases hte : e.tick = t
      · simp [hte]
      · simp [hte, Function.update_of_ne (Ne.symm hte)]
  · change a.processedBidCount + 1 = (a.bids.set e.bidId _).countP Bid.revealed
    rw [countP_set_add hb hr rfl, h.processed]
  · change (a.bids.set e.bidId _).length < 2 ^ 32
    rw [List.length_set]
    exact h.length_lt

lemma processOne {env : Env} {a a' : SealedBidAuction} {msg : Msg env} {e : RevealEntry} (h : Tallied a)
    (hstep : SealedBidAuction.processOne env a msg e = .ok a') : Tallied a' := by
  obtain ⟨b, hp, hcase⟩ := processOne_eq_ok.mp hstep
  rcases hcase with ⟨-, -, rfl⟩ | ⟨-, eligible, hel, -, rfl⟩
  · exact h.afterVoid msg hp.found hp.fresh
  · exact h.afterReveal hp.found hp.fresh hp.tick_lt hel

end Tallied

/-! ### Processing leaves the holdings alone -/

/-- The part of a bid that processing never writes. -/
def holding (b : Bid) : Nat × Nat × Nat × Bool := (b.bidder, b.commitment, b.escrow, b.claimed)

/-- `_processOne` touches only what a bid reveals and the counters. -/
structure SameHoldings (a a' : SealedBidAuction) : Prop where
  config : a'.config = a.config
  state : a'.state = a.state
  revealRoot : a'.revealRoot = a.revealRoot
  proceeds : a'.issuerProceedsClaimed = a.issuerProceedsClaimed
  unsold : a'.issuerUnsoldClaimed = a.issuerUnsoldClaimed
  holdings : a'.bids.map holding = a.bids.map holding

lemma SameHoldings.refl (a : SealedBidAuction) : SameHoldings a a := ⟨rfl, rfl, rfl, rfl, rfl, rfl⟩

lemma SameHoldings.trans {a b c : SealedBidAuction} (h : SameHoldings a b) (h' : SameHoldings b c) :
    SameHoldings a c :=
  ⟨h'.1.trans h.1, h'.2.trans h.2, h'.3.trans h.3, h'.4.trans h.4, h'.5.trans h.5, h'.6.trans h.6⟩

lemma processOne_sameHoldings {env : Env} {a a' : SealedBidAuction} {msg : Msg env} {e : RevealEntry}
    (h : processOne env a msg e = .ok a') : SameHoldings a a' := by
  obtain ⟨b, hp, hcase⟩ := processOne_eq_ok.mp h
  rcases hcase with ⟨-, -, rfl⟩ | ⟨-, eligible, -, -, rfl⟩
  · exact ⟨rfl, rfl, rfl, rfl, rfl, map_set_eq hp.found rfl⟩
  · exact ⟨rfl, rfl, rfl, rfl, rfl, map_set_eq hp.found rfl⟩

lemma processReveals_eq_ok {env : Env} {a a' : SealedBidAuction} {msg : Msg env}
    {entries : List RevealEntry} : a.processReveals env msg entries = .ok a' ↔
      a.state = .revealing ∧ entries.foldlM (fun a e => processOne env a msg e) a = .ok a' := by
  simp [processReveals]

lemma processReveals_sameHoldings {env : Env} {a a' : SealedBidAuction} {msg : Msg env}
    {entries : List RevealEntry} (h : a.processReveals env msg entries = .ok a') :
    a.state = .revealing ∧ SameHoldings a a' := by
  obtain ⟨hs, h⟩ := processReveals_eq_ok.mp h
  refine ⟨hs, foldlM_invariant (P := fun x => SameHoldings a x) _ ?_ (.refl a) h⟩
  intro x e x' _ hx hstep
  exact hx.trans (processOne_sameHoldings hstep)

lemma Tallied.processReveals {env : Env} {a a' : SealedBidAuction} {msg : Msg env}
    {entries : List RevealEntry} (ht : Tallied a) (h : a.processReveals env msg entries = .ok a') :
    Tallied a' := by
  obtain ⟨-, h⟩ := processReveals_eq_ok.mp h
  exact foldlM_invariant (P := Tallied) _ (fun x e x' _ hx hstep => hx.processOne hstep) ht h

end Peal.Auction
