import Peal.Auction.QuoteSolvency

namespace Peal.Auction
open Peal.Fallible Peal.UniformPrice Peal.Runs Peal.Rows SealedBidAuction

/-! # The quantity cap of an address -/

/-- What the bids of one address are allocated together. -/
def SealedBidAuction.allocatedTo (a : SealedBidAuction) (bidder : Nat) : Nat :=
  sumWhere (fun b => b.bidder == bidder) a.tokensDue a.bids

def competes (cfg : Config) (bids : List Bid) (b : Bid) : Bool :=
  counts cfg b && decide (clearsAt cfg bids ≤ b.tick)

/-- The eligible quantity of one address at or above the tick the bids clear at. -/
def competingTotal (cfg : Config) (bids : List Bid) (bidder : Nat) : Nat :=
  sumWhere (fun b => b.bidder == bidder && competes cfg bids b) Bid.quantity bids

def CapKept (w : World) : Prop :=
  w.auction.state = .settled → w.auction.config.maxQuantityPerAddress ≠ 0 →
    ∀ bidder, w.auction.allocatedTo bidder ≤ w.auction.config.maxQuantityPerAddress

def WithinCap (a : SealedBidAuction) : Prop :=
  a.config.maxQuantityPerAddress ≠ 0 →
    ∀ bidder, competingTotal a.config a.bids bidder ≤ a.config.maxQuantityPerAddress

/-- A settling `finalize` finds no address with more competing demand than the cap. -/
def FinalizeWithinCap (env : Env) (w : World) (c : Msg env × Call) : Prop :=
  c.2 = .finalize → Settleable w.auction c.1.timestamp → WithinCap w.auction

section Cap

variable {env : Env} {w w' : World} {msg : Msg env}

lemma competingTotal_afterClaim {a : SealedBidAuction} {i : Nat} {b : Bid} (hb : a.bids[i]? = some b) (bidder : Nat) :
    competingTotal a.config (World.afterClaim a i b).bids bidder = competingTotal a.config a.bids bidder := by
  have hbook : book a.config (World.afterClaim a i b).bids = book a.config a.bids :=
    filterMap_set_eq hb rfl
  have hclears : competes a.config (World.afterClaim a i b).bids = competes a.config a.bids := by
    unfold competes clearsAt
    rw [hbook]
  have hset := sumWhere_set (p := fun b => b.bidder == bidder && competes a.config a.bids b) (f := Bid.quantity) hb
    { b with claimed := true }
  unfold competingTotal
  rw [hclears]
  exact Nat.add_right_cancel hset

lemma settled_cases {c : Msg env × Call} (h : Invariant env w) (hstep : step env w c = .ok w')
    (hs' : w'.auction.state = .settled) :
    (c.2 = .finalize ∧ Settleable w.auction c.1.timestamp ∧ w'.auction.config = w.auction.config ∧
        w'.auction.bids = w.auction.bids) ∨
      (w.auction.state = .settled ∧ w'.auction.config = w.auction.config ∧
        ∀ bidder, competingTotal w.auction.config w'.auction.bids bidder =
          competingTotal w.auction.config w.auction.bids bidder) := by
  obtain ⟨msg, c⟩ := c
  cases c with
  | fund =>
    obtain ⟨-, sale, -, rfl⟩ := World.fund_ok hstep
    cases hs'
  | cancel =>
    obtain ⟨sale, -, rfl⟩ := World.cancel_ok hstep
    cases hs'
  | commitBid commitment ciphertextHash escrowAmount allowlistProof =>
    obtain ⟨hs, -, quote, -, rfl⟩ := World.commitBid_ok hstep
    exact absurd (hs.symm.trans hs') (by decide)
  | commitBidWithPermit commitment ciphertextHash escrowAmount allowlistProof accepted =>
    obtain ⟨hs, -, quote, -, rfl⟩ := World.commitBidWithPermit_ok hstep
    exact absurd (hs.symm.trans hs') (by decide)
  | claim bidId =>
    simp only [step, bind_eq_ok] at hstep
    obtain ⟨⟨w₁, tokens, refund⟩, hclaim, heq⟩ := hstep
    obtain rfl := Except.ok.inj heq
    obtain ⟨b, hb, -, -, -, sale, quote, -, -, rfl⟩ := World.claim_ok hclaim
    exact .inr ⟨hs', rfl, competingTotal_afterClaim hb⟩
  | claimProceeds =>
    obtain ⟨hs, -, -, quote, -, rfl⟩ := World.claimProceeds_ok hstep
    exact .inr ⟨hs, rfl, fun _ => rfl⟩
  | claimUnsold =>
    obtain ⟨-, sale, -, rfl⟩ := World.claimUnsold_ok hstep
    exact .inr ⟨hs', rfl, fun _ => rfl⟩
  | registerCommitteeSet threshold members =>
    simp only [step, bind_eq_ok] at hstep
    obtain ⟨registry, -, heq⟩ := hstep
    obtain rfl := Except.ok.inj heq
    exact .inr ⟨hs', rfl, fun _ => rfl⟩
  | elsewhere sale quote =>
    simp only [step, bind_eq_ok, require_eq_ok] at hstep
    obtain ⟨-, -, heq⟩ := hstep
    obtain rfl := Except.ok.inj heq
    exact .inr ⟨hs', rfl, fun _ => rfl⟩
  | openCommit =>
    obtain ⟨a', ha, rfl⟩ := World.onAuction_ok hstep
    obtain ⟨-, rfl⟩ := openCommit_ok ha
    cases hs'
  | registerBatch batchCommitment =>
    obtain ⟨a', ha, rfl⟩ := World.onAuction_ok hstep
    obtain ⟨hs, rfl⟩ := registerBatch_ok ha
    exact absurd (hs.symm.trans hs') (by decide)
  | closeCommit =>
    obtain ⟨a', ha, rfl⟩ := World.onAuction_ok hstep
    obtain ⟨-, ⟨-, rfl⟩ | ⟨-, rfl⟩⟩ := closeCommit_ok ha
    · cases hs'
    · cases hs'
  | registerRevealRoot root bidCount signatures =>
    obtain ⟨a', ha, rfl⟩ := World.onAuction_ok hstep
    obtain ⟨-, rfl⟩ := registerRevealRoot_ok ha
    cases hs'
  | processReveals entries =>
    obtain ⟨a', ha, rfl⟩ := World.onAuction_ok hstep
    obtain ⟨hs, hsame⟩ := processReveals_sameHoldings ha
    exact absurd ((hsame.state.trans hs).symm.trans hs') (by decide)
  | disputeVoid bidId quantity tick salt bidVersion =>
    obtain ⟨a', ha, rfl⟩ := World.onAuction_ok hstep
    obtain ⟨-, -, -, rfl⟩ := disputeVoid_ok ha
    cases hs'
  | finalize =>
    obtain ⟨a', ha, rfl⟩ := World.onAuction_ok hstep
    obtain ⟨hs, hwindow, hprocessed, hfits, ⟨hsome, harith, rfl⟩ | ⟨-, rfl⟩⟩ :=
      h.tallied.finalize_eq_ok.mp ha
    · exact .inl ⟨rfl, ⟨hs, hwindow, hprocessed, hsome, hfits, harith⟩, rfl, rfl⟩
    · cases hs'
  | failOnRevealTimeout =>
    obtain ⟨a', ha, rfl⟩ := World.onAuction_ok hstep
    obtain ⟨-, rfl⟩ := failOnRevealTimeout_ok ha
    cases hs'

lemma allotted_le_competing (cfg : Config) (bids : List Bid) (b : Bid) :
    allotted cfg bids b ≤ if competes cfg bids b then b.quantity else 0 := by
  by_cases hc : competes cfg bids b = true
  · rw [if_pos hc]
    exact allotted_le_quantity cfg bids b
  · rw [if_neg hc]
    unfold allotted
    split_ifs with hcounts
    · have hbelow : b.tick < clearsAt cfg bids := by
        unfold competes at hc
        rw [hcounts, Bool.true_and, decide_eq_true_eq] at hc
        omega
      exact (fill_below _ _ _ hbelow).le
    · exact le_refl 0

lemma allocatedTo_le (h : Invariant env w) (hs : w.auction.state = .settled) (bidder : Nat) :
    w.auction.allocatedTo bidder ≤ competingTotal w.auction.config w.auction.bids bidder := by
  apply sumWhere_le_and
  intro b hb
  rw [tokensDue_eq h.tallied (h.staged.settled hs) hs hb]
  exact allotted_le_competing _ _ b

/-- In every run whose settling `finalize` finds no address with more competing demand than the cap, no address
is ever allocated more than the cap. -/
theorem address_cap (env : Env) {registry : CommitteeRegistry} {cfg : Config} {a : SealedBidAuction}
    (ha : initializeAuction registry cfg = .ok a) (sale quote : ERC20) {calls : List (Msg env × Call)}
    (hcap : Along (step env) (FinalizeWithinCap env) ⟨a, registry, sale, quote⟩ calls) :
    Throughout (step env) CapKept ⟨a, registry, sale, quote⟩ calls := by
  have hstart : Invariant env ⟨a, registry, sale, quote⟩ ∧
      (a.state = .settled → WithinCap a) := by
    obtain ⟨hinv, -⟩ := @invariant_initial env _ _ _ ha sale quote
    obtain ⟨-, rfl⟩ := initializeAuction_ok ha
    exact ⟨hinv, fun hs => by cases hs⟩
  have hrun := throughout_along (step env)
    (I := fun w => Invariant env w ∧ (w.auction.state = .settled → WithinCap w.auction)) ?_ hstart hcap
  · intro n hs hmax bidder
    obtain ⟨hinv, hwithin⟩ := hrun n
    exact (allocatedTo_le hinv hs bidder).trans (hwithin hs hmax bidder)
  · intro w c w' hw hok hstep
    refine ⟨step_invariant hw.1 hstep, fun hs' => ?_⟩
    rcases settled_cases hw.1 hstep hs' with ⟨hc, hset, hconfig, hbids⟩ | ⟨hs, hconfig, hsame⟩
    · have hwithin := hok hc hset
      unfold WithinCap at hwithin ⊢
      rw [hconfig, hbids]
      exact hwithin
    · have hwithin := hw.2 hs
      unfold WithinCap at hwithin ⊢
      rw [hconfig]
      intro hmax bidder
      rw [hsame bidder]
      exact hwithin hmax bidder

end Cap

/-! ### Two bids of one address -/

/-- Two units for sale, no more than one of them for an address. -/
def cappedConfig : Config := { sampleConfig with maxQuantityPerAddress := 1 }

def cappedWorld : World := ⟨{ sampleAuction with config := cappedConfig }, sampleRegistry, sampleToken, sampleToken⟩

lemma capped_accepted : initializeAuction sampleRegistry cappedConfig = .ok cappedWorld.auction := rfl

/-- `first` and `second` bid for one unit each. -/
def bidsOf (first second : Msg sampleEnv) : List (Msg sampleEnv × Call) :=
  [(sampleMsg 20 1 seller_sender, .fund), (sampleMsg 20 10 seller_sender, .openCommit),
    (first, .commitBid (bidCommitment sampleEnv first.sender 1 0 0 1) 1 1 []),
    (second, .commitBid (bidCommitment sampleEnv second.sender 1 0 1 1) 1 1 []),
    (sampleRelay 20, .closeCommit),
    (sampleRelay 21, .registerRevealRoot (sampleTree.root Peal.SortedPairTree.pairingHash) 2 [[7]]),
    (sampleRelay 22, .processReveals [⟨0, 1, 0, 0, 1, [sampleLeaf 1]⟩, ⟨1, 1, 0, 1, 1, [sampleLeaf 0]⟩])]

def apart : List (Msg sampleEnv × Call) := bidsOf (sampleMsg 40 11 bidder_sender) (sampleMsg 41 12 otherBidder_sender)

lemma apart_within : WithinCap (exec (step sampleEnv) cappedWorld apart).auction := by
  have hconfig : (exec (step sampleEnv) cappedWorld apart).auction.config = cappedConfig := by decide +kernel
  have hbids : (exec (step sampleEnv) cappedWorld apart).auction.bids.map (fun b => (b.bidder, b.quantity)) =
      [(40, 1), (41, 1)] := by decide +kernel
  intro _ bidder
  rw [hconfig]
  calc competingTotal cappedConfig (exec (step sampleEnv) cappedWorld apart).auction.bids bidder
      ≤ sumWhere (fun x : Nat × Nat => x.1 == bidder) Prod.snd
          ((exec (step sampleEnv) cappedWorld apart).auction.bids.map fun b => (b.bidder, b.quantity)) := by
        rw [sumWhere_map]
        exact sumWhere_and_le
    _ ≤ 1 := by
        rw [hbids]
        simp only [sumWhere_cons, sumWhere_nil, beq_iff_eq]
        split_ifs <;> omega

theorem address_cap_sample :
    Throughout (step sampleEnv) CapKept cappedWorld (apart ++ [(sampleRelay 23, .finalize)]) := by
  refine address_cap sampleEnv capped_accepted sampleToken sampleToken ?_
  refine ⟨?_, ?_, ?_, ?_, ?_, ?_, ?_, fun _ _ => apart_within, trivial⟩
  all_goals
    intro hfinal
    cases hfinal

def together : List (Msg sampleEnv × Call) :=
  bidsOf (sampleMsg 40 11 bidder_sender) (sampleMsg 40 12 bidder_sender) ++ [(sampleRelay 23, .finalize)]

/-- One address bids twice within the cap and is allocated two units under a cap of one. -/
theorem address_cap_exceeded :
    initializeAuction sampleRegistry cappedConfig = .ok cappedWorld.auction ∧
      (exec (step sampleEnv) cappedWorld together).auction.state = .settled ∧
      (exec (step sampleEnv) cappedWorld together).auction.config.maxQuantityPerAddress = 1 ∧
      (exec (step sampleEnv) cappedWorld together).auction.allocatedTo 40 = 2 ∧
      ¬Throughout (step sampleEnv) CapKept cappedWorld together := by
  have hrun : (exec (step sampleEnv) cappedWorld together).auction.state = .settled ∧
      (exec (step sampleEnv) cappedWorld together).auction.config.maxQuantityPerAddress = 1 ∧
      (exec (step sampleEnv) cappedWorld together).auction.allocatedTo 40 = 2 := by
    decide +kernel
  refine ⟨rfl, hrun.1, hrun.2.1, hrun.2.2, fun h => ?_⟩
  have hcap := h together.length
  rw [List.take_length] at hcap
  have hle := hcap hrun.1 (by rw [hrun.2.1]; decide) 40
  rw [hrun.2.1, hrun.2.2] at hle
  exact absurd hle (by decide)

end Peal.Auction
