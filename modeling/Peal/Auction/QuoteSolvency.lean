import Peal.Auction.Solvency

namespace Peal.Auction
open Peal.Fallible Peal.UniformPrice Peal.Runs Peal.Rows SealedBidAuction

/-! ### Settlement -/

section Settlement

variable {env : Env} {w : World}

lemma map_sub_add_map {bids : List Bid} {f g : Bid → Nat} (h : ∀ b ∈ bids, f b ≤ g b) :
    (bids.map (fun b => g b - f b)).sum + (bids.map f).sum = (bids.map g).sum := by
  induction bids with
  | nil => rfl
  | cons b bids ih =>
    have hb := h b List.mem_cons_self
    have hrest := ih (fun b' hb' => h b' (List.mem_cons_of_mem b hb'))
    simp only [List.map_cons, List.sum_cons]
    omega

lemma unclaimed_all {bids : List Bid} (hu : ∀ b ∈ bids, b.claimed = false) :
    ∀ b ∈ bids, isUnclaimed b = true := by
  intro b hb
  unfold isUnclaimed
  rw [hu b hb]
  rfl

lemma settled_refunds {a : SealedBidAuction} (ht : Tallied a) (hw : SettledWell a)
    (hs : a.state = .settled) (hu : ∀ b ∈ a.bids, b.claimed = false) :
    sumWhere isUnclaimed (fun b => b.escrow - a.charge b) a.bids +
      charges (priceFor a.config a.bids) (10 ^ a.config.saleDecimals) (winnings a.config a.bids) =
        escrowed a.bids := by
  have hcharge : (a.bids.map a.charge).sum =
      charges (priceFor a.config a.bids) (10 ^ a.config.saleDecimals) (winnings a.config a.bids) := by
    rw [← sum_charges]
    congr 1
    exact List.map_congr_left (fun b hb => charge_eq ht hw hs hb)
  have hle : ∀ b ∈ a.bids, a.charge b ≤ b.escrow := by
    intro b hb
    rw [charge_eq ht hw hs hb]
    exact (charge_fits a.config a.bids b).2
  rw [sumWhere_all _ (unclaimed_all hu), ← hcharge]
  exact map_sub_add_map hle

lemma settled_tokens {a : SealedBidAuction} (ht : Tallied a) (hw : SettledWell a)
    (hs : a.state = .settled) (hu : ∀ b ∈ a.bids, b.claimed = false) :
    sumWhere isUnclaimed a.tokensDue a.bids = (winnings a.config a.bids).sum := by
  rw [sumWhere_all _ (unclaimed_all hu), ← sum_allotted]
  congr 1
  exact List.map_congr_left (fun b hb => tokensDue_eq ht hw hs hb)

/-- A settling `finalize` keeps the invariant, and leaves the auction solvent exactly when the
rounding condition held before it. -/
theorem finalize_settles (h : Invariant env w) {msg : Msg env}
    (hset : Settleable w.auction msg.timestamp) :
    ∃ a', w.auction.finalize env msg = .ok a' ∧ Invariant env { w with auction := a' } ∧
      (Solvent env w → (Solvent env { w with auction := a' } ↔ RoundingCovered env w)) := by
  have ht := h.tallied
  have hrun : ¬World.isTerminal w.auction.state := notTerminal hset.state (by decide)
  obtain ⟨hu, hp, hun⟩ := h.running hrun
  have hwin := ht.winnings_le_sold
  have hw := ht.settledWell hset.processed hset.fits hset.demanded hset.arithmetic
  have ht' : Tallied (w.auction.afterSettle (clearingFor w.auction.config w.auction.bids)) :=
    ht.of_same rfl rfl rfl rfl
  have htokens := settled_tokens ht' hw rfl hu
  have hrefunds := settled_refunds ht' hw rfl hu
  have hsupply := h.funded hrun (by rw [hset.state]; decide)
  have hsold : (clearingFor w.auction.config w.auction.bids).supplySold =
      sold (book w.auction.config w.auction.bids) w.auction.config.totalSupply :=
    clearingOf_sold ht.accepted.supply_pos hset.demanded
  have hsold_le : sold (book w.auction.config w.auction.bids) w.auction.config.totalSupply ≤
      w.auction.config.totalSupply := min_le_left _ _
  refine ⟨_, ht.finalize_eq_ok.mpr ⟨hset.state, hset.window, hset.processed, hset.fits,
    Or.inl ⟨hset.demanded, hset.arithmetic, rfl⟩⟩, ⟨ht', ?_, ?_⟩, fun hsol => ?_⟩
  · exact ⟨fun hn => absurd (Or.inl rfl) hn, fun hn => absurd rfl hn, fun hn => absurd rfl hn,
      fun _ => hw⟩
  · rw [saleOwed_settled rfl, htokens]
    change (winnings w.auction.config w.auction.bids).sum + (if w.auction.issuerUnsoldClaimed then 0
      else w.auction.config.totalSupply - (clearingFor _ _).supplySold) ≤ w.sale.balanceOf env.self
    rw [hun, hsold]
    simp only [Bool.false_eq_true, if_false]
    omega
  · have hescrow : escrowed w.auction.bids ≤ w.quote.balanceOf env.self := by
      unfold Solvent at hsol
      rw [quoteOwed_unsettled (by rw [hset.state]; decide), sumWhere_all _ (unclaimed_all hu)] at hsol
      exact hsol
    have hcover := total_charge_covered_iff (priceFor w.auction.config w.auction.bids)
      (10 ^ w.auction.config.saleDecimals) (by positivity) hwin
      (w.quote.balanceOf env.self - escrowed w.auction.bids)
    rw [← grossOf_clearingFor ht.accepted hset.demanded] at hcover
    unfold RoundingCovered
    dsimp only
    rw [← hcover]
    unfold Solvent
    rw [quoteOwed_settled rfl]
    change sumWhere isUnclaimed _ w.auction.bids + (if w.auction.issuerProceedsClaimed then 0
      else grossOf w.auction.config (clearingFor w.auction.config w.auction.bids)) ≤
        w.quote.balanceOf env.self ↔ _
    rw [hp]
    simp only [Bool.false_eq_true, if_false]
    change sumWhere isUnclaimed _ w.auction.bids + charges (priceFor w.auction.config w.auction.bids)
      (10 ^ w.auction.config.saleDecimals) (winnings w.auction.config w.auction.bids) =
        escrowed w.auction.bids at hrefunds
    omega

lemma keeps_finalize (h : Invariant env w) {msg : Msg env} {a' : SealedBidAuction}
    (hset : ¬Settleable w.auction msg.timestamp) (hstep : w.auction.finalize env msg = .ok a') :
    Keeps env w { w with auction := a' } := by
  obtain ⟨hs, hwin, hp, hfit, hcase⟩ := h.tallied.finalize_eq_ok.mp hstep
  rcases hcase with ⟨hsome, harith, -⟩ | ⟨-, rfl⟩
  · exact absurd ⟨hs, hwin, hp, hsome, hfit, harith⟩ hset
  · exact h.proceedTo (notTerminal hs (by decide)) (by rw [hs]; decide) (by decide)

end Settlement

/-! ### Runs -/

section Runs

variable {env : Env} {w : World}

/-- Every accepted call but a settling `finalize` keeps the invariant and solvency. -/
theorem step_keeps (h : Invariant env w) {msg : Msg env} {c : Call} {w' : World}
    (hstep : step env w (msg, c) = .ok w')
    (hfin : c = .finalize → ¬Settleable w.auction msg.timestamp) : Keeps env w w' := by
  cases c with
  | fund => exact keeps_fund h hstep
  | cancel => exact keeps_cancel h hstep
  | commitBid commitment ciphertextHash escrowAmount allowlistProof =>
    obtain ⟨hs, hlen, quote, hq, rfl⟩ := World.commitBid_ok hstep
    exact keeps_commit h hs hlen hq
  | commitBidWithPermit commitment ciphertextHash escrowAmount allowlistProof accepted =>
    obtain ⟨hs, hlen, quote, hq, rfl⟩ := World.commitBidWithPermit_ok hstep
    exact keeps_commit h hs hlen hq
  | claim bidId =>
    simp only [step, bind_eq_ok] at hstep
    obtain ⟨⟨w₁, tokens, refund⟩, hclaim, heq⟩ := hstep
    obtain rfl := Except.ok.inj heq
    exact keeps_claim h hclaim
  | claimProceeds => exact keeps_claimProceeds h hstep
  | claimUnsold => exact keeps_claimUnsold h hstep
  | registerCommitteeSet threshold members =>
    simp only [step, bind_eq_ok] at hstep
    obtain ⟨registry, -, heq⟩ := hstep
    obtain rfl := Except.ok.inj heq
    exact ⟨⟨h.tallied, h.staged, h.supplied⟩, fun hsol => hsol⟩
  | elsewhere sale quote =>
    simp only [step, bind_eq_ok, require_eq_ok] at hstep
    obtain ⟨-, ⟨hsale, hquote⟩, heq⟩ := hstep
    obtain rfl := Except.ok.inj heq
    exact keeps_elsewhere h hsale hquote
  | openCommit =>
    obtain ⟨a', ha, rfl⟩ := World.onAuction_ok hstep
    obtain ⟨hs, rfl⟩ := openCommit_ok ha
    exact h.proceedTo (notTerminal hs (by decide)) (by rw [hs]; decide) (by decide)
  | registerBatch batchCommitment =>
    obtain ⟨a', ha, rfl⟩ := World.onAuction_ok hstep
    obtain ⟨hs, rfl⟩ := registerBatch_ok ha
    obtain ⟨hu, hp, hun⟩ := h.running (notTerminal hs (by decide))
    exact ⟨⟨h.tallied.of_same rfl rfl rfl rfl,
      staged_running (notTerminal hs (by decide)) hu hp hun, h.supplied⟩, fun hsol => hsol⟩
  | closeCommit =>
    obtain ⟨a', ha, rfl⟩ := World.onAuction_ok hstep
    obtain ⟨hs, ⟨-, rfl⟩ | ⟨-, rfl⟩⟩ := closeCommit_ok ha
    · exact h.proceedTo (notTerminal hs (by decide)) (by rw [hs]; decide) (by decide)
    · exact h.proceedTo (notTerminal hs (by decide)) (by rw [hs]; decide) (by decide)
  | registerRevealRoot root bidCount signatures =>
    obtain ⟨a', ha, rfl⟩ := World.onAuction_ok hstep
    exact keeps_registerRevealRoot h ha
  | processReveals entries =>
    obtain ⟨a', ha, rfl⟩ := World.onAuction_ok hstep
    exact keeps_processReveals h ha
  | disputeVoid bidId quantity tick salt bidVersion =>
    obtain ⟨a', ha, rfl⟩ := World.onAuction_ok hstep
    obtain ⟨hs, -, -, rfl⟩ := disputeVoid_ok ha
    exact h.proceedTo (notTerminal hs (by decide)) (by rw [hs]; decide) (by decide)
  | finalize =>
    obtain ⟨a', ha, rfl⟩ := World.onAuction_ok hstep
    exact keeps_finalize h (hfin rfl) ha
  | failOnRevealTimeout =>
    obtain ⟨a', ha, rfl⟩ := World.onAuction_ok hstep
    obtain ⟨hs, rfl⟩ := failOnRevealTimeout_ok ha
    rcases hs with hs | hs
    · exact h.proceedTo (notTerminal hs (by decide)) (by rw [hs]; decide) (by decide)
    · exact h.proceedTo (notTerminal hs (by decide)) (by rw [hs]; decide) (by decide)

lemma step_invariant (h : Invariant env w) {c : Msg env × Call} {w' : World}
    (hstep : step env w c = .ok w') : Invariant env w' := by
  obtain ⟨msg, c⟩ := c
  by_cases hset : c = .finalize ∧ Settleable w.auction msg.timestamp
  · obtain ⟨rfl, hset⟩ := hset
    obtain ⟨a', ha, hinv, -⟩ := finalize_settles h hset
    obtain ⟨a, ha', rfl⟩ := World.onAuction_ok hstep
    rw [ha] at ha'
    obtain rfl := Except.ok.inj ha'
    exact hinv
  · exact (step_keeps h hstep (fun hc hs => hset ⟨hc, hs⟩)).1

lemma solvent_advance_iff (h : Invariant env w) (hsol : Solvent env w) (c : Msg env × Call) :
    Solvent env (advance (step env) w c) ↔ FinalizeCovered env w c := by
  obtain ⟨msg, c⟩ := c
  by_cases hset : c = .finalize ∧ Settleable w.auction msg.timestamp
  · obtain ⟨rfl, hset⟩ := hset
    obtain ⟨a', ha, -, hiff⟩ := finalize_settles h hset
    have hstep : step env w (msg, .finalize) = .ok { w with auction := a' } := by
      simp only [step, World.onAuction, bind_eq_ok, ha]
      exact ⟨a', rfl, rfl⟩
    rw [advance_of_ok _ hstep, hiff hsol]
    exact ⟨fun hcov _ _ => hcov, fun hcov => hcov rfl hset⟩
  · have hnot : c = .finalize → ¬Settleable w.auction msg.timestamp := fun hc hs => hset ⟨hc, hs⟩
    have hkept : Solvent env (advance (step env) w (msg, c)) :=
      advance_induct _ hsol (fun w' hstep => (step_keeps h hstep hnot).2 hsol)
    exact ⟨fun _ hc hs => absurd hs (hnot hc), fun _ => hkept⟩

lemma honoured_of_solvent (h : Invariant env w) (hsol : Solvent env w) : Honoured env w := by
  refine ⟨hsol, fun hs => ?_⟩
  have hw := h.staged.settled hs
  have hsup := h.supplied
  unfold Solvent at hsol
  rw [quoteOwed_settled hs] at hsol
  rw [saleOwed_settled hs] at hsup
  refine ⟨fun i b hb hc => ?_, fun msg hissuer hunclaimed => ?_⟩
  · have hmem : b ∈ w.auction.bids := List.mem_of_getElem? hb
    have hopen : isUnclaimed b = true := by
      unfold isUnclaimed
      rw [hc]
      rfl
    have htokens := le_sumWhere (f := w.auction.tokensDue) hmem hopen
    have hrefund := le_sumWhere (f := fun b => b.escrow - w.auction.charge b) hmem hopen
    have hamounts := claimAmounts_settled h.tallied hw hs hmem
    have hsale_covers : w.auction.tokensDue b ≤ w.sale.balanceOf env.self := by omega
    have hquote_covers : b.escrow - w.auction.charge b ≤ w.quote.balanceOf env.self := by
      omega
    obtain ⟨w', hclaim⟩ := World.claim_succeeds hb (h.tallied.bidder_ne_zero b hmem) hc
      (Or.inl hs) hamounts hsale_covers hquote_covers
    exact ⟨w', _, _, hclaim⟩
  · have hfee : w.auction.protocolFee = feeOf w.auction.config w.auction.clearing := hw.fee
    have hgross : w.auction.grossProceeds = grossOf w.auction.config w.auction.clearing := hw.gross
    have hcfg := h.tallied.accepted
    rw [hunclaimed] at hsol
    simp only [Bool.false_eq_true, if_false] at hsol
    refine World.claimProceeds_succeeds hissuer hs hunclaimed ?_ ?_ hcfg.issuer_ne_zero (by omega)
    · rw [hfee, hgross]
      unfold feeOf
      apply Nat.div_le_of_le_mul
      rw [Nat.mul_comm 10000]
      exact Nat.mul_le_mul_left _ (hcfg.fee_le.trans (by norm_num))
    · intro hpos
      rcases hcfg.fee_recipient with hr | hbps
      · exact hr
      · rw [hfee] at hpos
        unfold feeOf at hpos
        rw [hbps] at hpos
        simp at hpos

/-- Over any run from an accepted configuration the auction stays solvent, and once settled pays
every claim, exactly when each settling `finalize` met the rounding condition. -/
theorem quote_solvency_iff (env : Env) {registry : CommitteeRegistry} {cfg : Config}
    {a : SealedBidAuction} (ha : initializeAuction registry cfg = .ok a) (sale quote : ERC20)
    (calls : List (Msg env × Call)) :
    Throughout (step env) (Honoured env) ⟨a, registry, sale, quote⟩ calls ↔
      Along (step env) (FinalizeCovered env) ⟨a, registry, sale, quote⟩ calls := by
  obtain ⟨hinv, hsol⟩ := invariant_initial ha sale quote
  apply throughout_iff_along (step env) (fun w c w' hw hstep => step_invariant hw hstep) ?_ hinv
    (honoured_of_solvent hinv hsol)
  intro w c hw hh
  rw [← solvent_advance_iff hw hh.1 c]
  have hnext : Invariant env (advance (step env) w c) :=
    advance_induct _ hw (fun w' hstep => step_invariant hw hstep)
  exact ⟨fun hon => hon.1, fun hs => honoured_of_solvent hnext hs⟩

end Runs

/-! ### A sale that cannot pay everyone -/

/-- A chain whose hash has no collisions and whose signatures carry their signer. -/
def sampleEnv : Env where
  keccak256 := Peal.SortedPairTree.pairingHash
  chainid := 1
  self := 9
  recover := fun _ signature => signature.head?
  bidCommitmentTypehash := 1
  revealRootTypehash := 2
  domainTypehash := 3
  nameHash := 4
  versionHash := 5

lemma seller_sender : 20 ≠ 0 ∧ 20 ≠ 9 := by decide

lemma bidder_sender : 40 ≠ 0 ∧ 40 ≠ 9 := by decide

lemma otherBidder_sender : 41 ≠ 0 ∧ 41 ≠ 9 := by decide

def sampleMsg (sender timestamp : Nat) (h : sender ≠ 0 ∧ sender ≠ 9 := by decide) : Msg sampleEnv :=
  ⟨sender, timestamp, timestamp, h.1, h.2⟩

def sampleRelay (timestamp : Nat) : Msg sampleEnv := sampleMsg 40 timestamp bidder_sender

def sampleRegistry : CommitteeRegistry :=
  ⟨fun setId => if setId = 8 then ⟨1, [7], 0⟩ else default, fun setId m => setId == 8 && m == 7⟩

/-- Two sale units of one decimal, at half a quote unit each. -/
def sampleConfig : Config where
  issuer := 20
  saleToken := 30
  quoteToken := 31
  totalSupply := 2
  saleDecimals := 1
  reservePrice := 5
  tickSize := 1
  numTicks := 1
  startTime := 10
  endTime := 20
  revealDeadline := 100
  minBidQuantity := 0
  maxQuantityPerAddress := 0
  maxBids := 10
  allowlistRoot := 0
  protocolFeeBps := 0
  feeRecipient := 0
  committeeSetId := 8
  encryptionEpoch := 0
  voidDisputeWindow := 30

def sampleAuction : SealedBidAuction :=
  ⟨sampleConfig, .created, [], 0, 0, 0, 0, default, 0, 0, 0, false, false, fun _ => 0, []⟩

/-- Everyone holds ten units and has approved the auction for them. -/
def sampleToken : ERC20 := ⟨fun x => if x = 9 then 0 else 10, fun _ spender => if spender = 9 then 10 else 0⟩

def sampleLeaf (bidId : Nat) : Nat := revealLeaf sampleEnv bidId 1 0 bidId

def sampleTree : Peal.SortedPairTree.HashTree := .node (.leaf (sampleLeaf 0)) (.leaf (sampleLeaf 1))

/-- Two bids for one unit each, revealed and settled. -/
def sampleCalls : List (Msg sampleEnv × Call) :=
  [(sampleMsg 20 1 seller_sender, .fund), (sampleMsg 20 10 seller_sender, .openCommit),
    (sampleMsg 40 11 bidder_sender, .commitBid (bidCommitment sampleEnv 40 1 0 0 1) 1 1 []),
    (sampleMsg 41 12 otherBidder_sender, .commitBid (bidCommitment sampleEnv 41 1 0 1 1) 1 1 []),
    (sampleRelay 20, .closeCommit),
    (sampleRelay 21, .registerRevealRoot (sampleTree.root Peal.SortedPairTree.pairingHash) 2 [[7]]),
    (sampleRelay 22, .processReveals [⟨0, 1, 0, 0, 1, [sampleLeaf 1]⟩, ⟨1, 1, 0, 1, 1, [sampleLeaf 0]⟩]),
    (sampleRelay 23, .finalize)]

def sampleWorld : World := ⟨sampleAuction, sampleRegistry, sampleToken, sampleToken⟩

theorem quote_solvency_sample :
    Throughout (step sampleEnv) (Honoured sampleEnv) sampleWorld sampleCalls ↔
      Along (step sampleEnv) (FinalizeCovered sampleEnv) sampleWorld sampleCalls :=
  quote_solvency_iff sampleEnv (show initializeAuction sampleRegistry sampleConfig = .ok sampleAuction from rfl)
    sampleToken sampleToken sampleCalls

/-- The sale is accepted and settles, yet it owes three quote units and holds two. -/
theorem quote_solvency_fails :
    initializeAuction sampleRegistry sampleConfig = .ok sampleAuction ∧
      (exec (step sampleEnv) sampleWorld sampleCalls).auction.state = .settled ∧
      (exec (step sampleEnv) sampleWorld sampleCalls).auction.quoteOwed = 3 ∧
      (exec (step sampleEnv) sampleWorld sampleCalls).quote.balanceOf 9 = 2 ∧
      ¬Throughout (step sampleEnv) (Honoured sampleEnv) sampleWorld sampleCalls := by
  have hrun : (exec (step sampleEnv) sampleWorld sampleCalls).auction.state = .settled ∧
      (exec (step sampleEnv) sampleWorld sampleCalls).auction.quoteOwed = 3 ∧
      (exec (step sampleEnv) sampleWorld sampleCalls).quote.balanceOf 9 = 2 := by
    decide +kernel
  refine ⟨rfl, hrun.1, hrun.2.1, hrun.2.2, fun h => ?_⟩
  have hlast : (exec (step sampleEnv) sampleWorld sampleCalls).auction.quoteOwed ≤
      (exec (step sampleEnv) sampleWorld sampleCalls).quote.balanceOf 9 := (h sampleCalls.length).1
  omega

end Peal.Auction
