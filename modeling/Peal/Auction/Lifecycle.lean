import Peal.Auction.Tally

namespace Peal.Auction
open Peal.Fallible Peal.Runs Peal.Rows SealedBidAuction

/-! # What a call can do to an auction -/

/-- The calls that only move the auction to another state. -/
inductive Moves (a : SealedBidAuction) : State → Prop where
  | fund (hs : a.state = .created) : Moves a .funded
  | openCommit (hs : a.state = .funded) : Moves a .commitOpen
  | cancel (hs : a.state = .created ∨ a.state = .funded ∨ (a.state = .commitOpen ∧ a.bids = [])) :
      Moves a .cancelled
  | closeCommit (hs : a.state = .commitOpen) (hb : a.bids ≠ []) : Moves a .commitClosed
  | nobodyBid (hs : a.state = .commitOpen) (hb : a.bids = []) : Moves a .failed
  | fail (hs : a.state = .commitClosed ∨ a.state = .revealing) : Moves a .failed

/-- What an accepted call leaves of an auction. -/
inductive Change (a : SealedBidAuction) : SealedBidAuction → Prop where
  | same : Change a a
  | moved {s : State} (h : Moves a s) : Change a { a with state := s }
  | committed {b : Bid} (hs : a.state = .commitOpen) (hr : b.revealed = false) (hv : b.voided = false)
      (hc : b.claimed = false) : Change a { a with bids := a.bids ++ [b] }
  | batched {batches : List Nat} (hs : a.state = .commitOpen) : Change a { a with batchCommitments := batches }
  | rooted {root : Nat} (hs : a.state = .commitClosed) :
      Change a { a with revealRoot := root, state := .revealing }
  | processed {a' : SealedBidAuction} (hs : a.state = .revealing) (h : SameHoldings a a') : Change a a'
  | settled {r : Result} (hs : a.state = .revealing) : Change a (a.afterSettle r)
  | claimed {i : Nat} {b : Bid} (hb : a.bids[i]? = some b) (hc : b.claimed = false)
      (hs : World.isTerminal a.state) : Change a (World.afterClaim a i b)
  | paidIssuer {proceeds unsold : Bool} (hs : World.isTerminal a.state) :
      Change a { a with issuerProceedsClaimed := proceeds, issuerUnsoldClaimed := unsold }

theorem step_change {env : Env} {w w' : World} {c : Msg env × Call} (hstep : step env w c = .ok w') :
    Change w.auction w'.auction := by
  obtain ⟨msg, c⟩ := c
  cases c with
  | fund =>
    obtain ⟨hs, sale, -, rfl⟩ := World.fund_ok hstep
    exact .moved (.fund hs)
  | cancel =>
    obtain ⟨sale, hs, rfl⟩ := World.cancel_ok hstep
    exact .moved (.cancel hs)
  | commitBid commitment ciphertextHash escrowAmount allowlistProof =>
    obtain ⟨hs, -, quote, -, rfl⟩ := World.commitBid_ok hstep
    exact .committed hs rfl rfl rfl
  | commitBidWithPermit commitment ciphertextHash escrowAmount allowlistProof accepted =>
    obtain ⟨hs, -, quote, -, rfl⟩ := World.commitBidWithPermit_ok hstep
    exact .committed hs rfl rfl rfl
  | claim bidId =>
    simp only [step, bind_eq_ok] at hstep
    obtain ⟨⟨w₁, tokens, refund⟩, hclaim, heq⟩ := hstep
    obtain rfl := Except.ok.inj heq
    obtain ⟨b, hb, hc, hterm, -, sale, quote, -, -, rfl⟩ := World.claim_ok hclaim
    exact .claimed hb hc hterm
  | claimProceeds =>
    obtain ⟨hs, -, -, quote, -, rfl⟩ := World.claimProceeds_ok hstep
    exact .paidIssuer (Or.inl hs)
  | claimUnsold =>
    obtain ⟨-, sale, hs, rfl⟩ := World.claimUnsold_ok hstep
    rcases hs with ⟨hs, -⟩ | ⟨hs, -⟩
    · exact .paidIssuer (Or.inl hs)
    · exact .paidIssuer (Or.inr (Or.inl hs))
  | registerCommitteeSet threshold members =>
    simp only [step, bind_eq_ok] at hstep
    obtain ⟨registry, -, heq⟩ := hstep
    obtain rfl := Except.ok.inj heq
    exact .same
  | elsewhere sale quote =>
    simp only [step, bind_eq_ok] at hstep
    obtain ⟨-, -, heq⟩ := hstep
    obtain rfl := Except.ok.inj heq
    exact .same
  | openCommit =>
    obtain ⟨a', ha, rfl⟩ := World.onAuction_ok hstep
    obtain ⟨hs, rfl⟩ := openCommit_ok ha
    exact .moved (.openCommit hs)
  | registerBatch batchCommitment =>
    obtain ⟨a', ha, rfl⟩ := World.onAuction_ok hstep
    obtain ⟨hs, rfl⟩ := registerBatch_ok ha
    exact .batched hs
  | closeCommit =>
    obtain ⟨a', ha, rfl⟩ := World.onAuction_ok hstep
    obtain ⟨hs, ⟨hb, rfl⟩ | ⟨hb, rfl⟩⟩ := closeCommit_ok ha
    · exact .moved (.nobodyBid hs hb)
    · exact .moved (.closeCommit hs hb)
  | registerRevealRoot root bidCount signatures =>
    obtain ⟨a', ha, rfl⟩ := World.onAuction_ok hstep
    obtain ⟨hs, rfl⟩ := registerRevealRoot_ok ha
    exact .rooted hs
  | processReveals entries =>
    obtain ⟨a', ha, rfl⟩ := World.onAuction_ok hstep
    obtain ⟨hs, hsame⟩ := processReveals_sameHoldings ha
    exact .processed hs hsame
  | disputeVoid bidId quantity tick salt bidVersion =>
    obtain ⟨a', ha, rfl⟩ := World.onAuction_ok hstep
    obtain ⟨hs, -, -, rfl⟩ := disputeVoid_ok ha
    exact .moved (.fail (Or.inr hs))
  | finalize =>
    obtain ⟨a', ha, rfl⟩ := World.onAuction_ok hstep
    obtain ⟨hs, -, -, r, -, ⟨-, -, rfl⟩ | ⟨-, rfl⟩⟩ := SealedBidAuction.finalize_eq_ok.mp ha
    · exact .settled hs
    · exact .moved (.fail (Or.inr hs))
  | failOnRevealTimeout =>
    obtain ⟨a', ha, rfl⟩ := World.onAuction_ok hstep
    obtain ⟨hs, rfl⟩ := failOnRevealTimeout_ok ha
    exact .moved (.fail hs)

namespace Change

variable {a a' : SealedBidAuction}

lemma config_eq (h : Change a a') : a'.config = a.config := by
  cases h with
  | processed hs hsame => exact hsame.config
  | same | moved | committed | batched | rooted | settled | claimed | paidIssuer => rfl

lemma terminal (h : Change a a') (ht : World.isTerminal a.state) : a'.state = a.state := by
  have hne {s : State} (hs : a.state = s) (hs' : s ≠ .settled ∧ s ≠ .failed ∧ s ≠ .cancelled) :
      a'.state = a.state := by
    rw [hs] at ht
    rcases ht with ht | ht | ht
    · exact absurd ht hs'.1
    · exact absurd ht hs'.2.1
    · exact absurd ht hs'.2.2
  cases h with
  | same | claimed | paidIssuer => rfl
  | committed hs | batched hs | rooted hs | processed hs | settled hs => exact hne hs (by decide)
  | moved hmove =>
    cases hmove with
    | fund hs | openCommit hs | closeCommit hs | nobodyBid hs => exact hne hs (by decide)
    | cancel hs =>
      rcases hs with hs | hs | ⟨hs, -⟩
      · exact hne hs (by decide)
      · exact hne hs (by decide)
      · exact hne hs (by decide)
    | fail hs =>
      rcases hs with hs | hs
      · exact hne hs (by decide)
      · exact hne hs (by decide)

lemma holding_kept (h : Change a a') {i : Nat} {b : Bid} (hb : a.bids[i]? = some b) :
    ∃ b', a'.bids[i]? = some b' ∧ b'.bidder = b.bidder ∧ b'.escrow = b.escrow ∧
      (b.claimed = true → b'.claimed = true) := by
  cases h with
  | same | moved | batched | rooted | settled | paidIssuer => exact ⟨b, hb, rfl, rfl, id⟩
  | committed => exact ⟨b, (List.getElem?_append_left (List.getElem?_eq_some_iff.mp hb).1).trans hb, rfl, rfl, id⟩
  | processed hs hsame =>
    have hmap := congrArg (fun rows => rows[i]?) hsame.holdings
    simp only [List.getElem?_map, hb, Option.map_some, Option.map_eq_some_iff] at hmap
    obtain ⟨b', hb', heq⟩ := hmap
    simp only [holding, Prod.mk.injEq] at heq
    obtain ⟨hbidder, -, hescrow, hclaimed⟩ := heq
    exact ⟨b', hb', hbidder, hescrow, fun hc => hclaimed.trans hc⟩
  | @claimed j bj hbj hc hs =>
    by_cases hij : j = i
    · subst hij
      obtain rfl : b = bj := Option.some.inj (hb.symm.trans hbj)
      have hlt : j < a.bids.length := (List.getElem?_eq_some_iff.mp hb).1
      exact ⟨_, List.getElem?_set_self hlt, rfl, rfl, fun _ => rfl⟩
    · exact ⟨b, (List.getElem?_set_ne hij).trans hb, rfl, rfl, id⟩

end Change

lemma settled_accepts {env : Env} {w w' : World} {msg : Msg env} {c : Call} (hs : w.auction.state = .settled)
    (hstep : step env w (msg, c) = .ok w') : (∃ i, c = .claim i) ∨
      ((c = .claimProceeds ∨ c = .claimUnsold) ∧ msg.sender = w.auction.config.issuer) ∨
      (∃ threshold members, c = .registerCommitteeSet threshold members) ∨ ∃ sale quote, c = .elsewhere sale quote := by
  have hne {s : State} {p : Prop} (h : w.auction.state = s) (hs' : s ≠ .settled) : p :=
    absurd (h.symm.trans hs) hs'
  cases c with
  | fund => exact hne (World.fund_ok hstep).1 (by decide)
  | cancel =>
    obtain ⟨sale, h | h | ⟨h, -⟩, -⟩ := World.cancel_ok hstep
    · exact hne h (by decide)
    · exact hne h (by decide)
    · exact hne h (by decide)
  | commitBid commitment ciphertextHash escrowAmount allowlistProof =>
    exact hne (World.commitBid_ok hstep).1 (by decide)
  | commitBidWithPermit commitment ciphertextHash escrowAmount allowlistProof accepted =>
    exact hne (World.commitBidWithPermit_ok hstep).1 (by decide)
  | claim i => exact Or.inl ⟨i, rfl⟩
  | claimProceeds =>
    simp only [step, World.claimProceeds, bind_eq_ok, onlyIssuer_eq_ok] at hstep
    obtain ⟨-, hissuer, -⟩ := hstep
    exact Or.inr (Or.inl ⟨Or.inl rfl, hissuer⟩)
  | claimUnsold =>
    simp only [step, World.claimUnsold, bind_eq_ok, onlyIssuer_eq_ok] at hstep
    obtain ⟨-, hissuer, -⟩ := hstep
    exact Or.inr (Or.inl ⟨Or.inr rfl, hissuer⟩)
  | registerCommitteeSet threshold members => exact Or.inr (Or.inr (Or.inl ⟨threshold, members, rfl⟩))
  | elsewhere sale quote => exact Or.inr (Or.inr (Or.inr ⟨sale, quote, rfl⟩))
  | openCommit =>
    obtain ⟨a', ha, -⟩ := World.onAuction_ok hstep
    exact hne (openCommit_ok ha).1 (by decide)
  | registerBatch batchCommitment =>
    obtain ⟨a', ha, -⟩ := World.onAuction_ok hstep
    exact hne (registerBatch_ok ha).1 (by decide)
  | closeCommit =>
    obtain ⟨a', ha, -⟩ := World.onAuction_ok hstep
    exact hne (closeCommit_ok ha).1 (by decide)
  | registerRevealRoot root bidCount signatures =>
    obtain ⟨a', ha, -⟩ := World.onAuction_ok hstep
    exact hne (registerRevealRoot_ok ha).1 (by decide)
  | processReveals entries =>
    obtain ⟨a', ha, -⟩ := World.onAuction_ok hstep
    exact hne (processReveals_eq_ok.mp ha).1 (by decide)
  | disputeVoid bidId quantity tick salt bidVersion =>
    obtain ⟨a', ha, -⟩ := World.onAuction_ok hstep
    exact hne (disputeVoid_ok ha).1 (by decide)
  | finalize =>
    obtain ⟨a', ha, -⟩ := World.onAuction_ok hstep
    exact hne (SealedBidAuction.finalize_eq_ok.mp ha).1 (by decide)
  | failOnRevealTimeout =>
    obtain ⟨a', ha, -⟩ := World.onAuction_ok hstep
    rcases (failOnRevealTimeout_ok ha).1 with h | h
    · exact hne h (by decide)
    · exact hne h (by decide)

/-! ### Phases -/

/-- Bids come with the commit phase, a cancelled auction has none, and two of the states are never used. -/
structure Phased (a : SealedBidAuction) : Prop where
  used : a.state ≠ .revealPending ∧ a.state ≠ .readyToSettle
  nobody : a.state = .created ∨ a.state = .funded ∨ a.state = .cancelled → a.bids = []

lemma Phased.running {a : SealedBidAuction} (hs : a.state = .commitOpen ∨ a.state = .commitClosed ∨
    a.state = .revealing ∨ a.state = .settled ∨ a.state = .failed) : Phased a := by
  constructor
  · rcases hs with hs | hs | hs | hs | hs <;> rw [hs] <;> decide
  · rcases hs with hs | hs | hs | hs | hs <;> rw [hs] <;> rintro (h | h | h) <;> cases h

lemma Change.phased {a a' : SealedBidAuction} (h : Change a a') (hp : Phased a) : Phased a' := by
  have hempty {s : State} (hb : a.bids = []) (hs : s ≠ .revealPending ∧ s ≠ .readyToSettle) :
      Phased { a with state := s } := ⟨hs, fun _ => hb⟩
  cases h with
  | same => exact hp
  | moved hmove =>
    cases hmove with
    | fund hs => exact hempty (hp.nobody (Or.inl hs)) (by decide)
    | openCommit hs => exact .running (Or.inl rfl)
    | cancel hs =>
      rcases hs with hs | hs | ⟨-, hb⟩
      · exact hempty (hp.nobody (Or.inl hs)) (by decide)
      · exact hempty (hp.nobody (Or.inr (Or.inl hs))) (by decide)
      · exact hempty hb (by decide)
    | closeCommit => exact .running (Or.inr (Or.inl rfl))
    | nobodyBid | fail => exact .running (Or.inr (Or.inr (Or.inr (Or.inr rfl))))
  | committed hs => exact .running (Or.inl hs)
  | batched hs => exact .running (Or.inl hs)
  | rooted => exact .running (Or.inr (Or.inr (Or.inl rfl)))
  | processed hs hsame => exact .running (Or.inr (Or.inr (Or.inl (hsame.state.trans hs))))
  | settled => exact .running (Or.inr (Or.inr (Or.inr (Or.inl rfl))))
  | @claimed i b hb hc hs =>
    refine ⟨hp.used, fun hs' => ?_⟩
    rw [hp.nobody hs'] at hb
    simp at hb
  | paidIssuer => exact ⟨hp.used, hp.nobody⟩

section Runs

variable (env : Env) {registry : CommitteeRegistry} {cfg : Config} {a : SealedBidAuction}

lemma exec_phased (ha : initializeAuction registry cfg = .ok a) (sale quote : ERC20)
    (calls : List (Msg env × Call)) : Phased (exec (step env) ⟨a, registry, sale, quote⟩ calls).auction := by
  have hinit : Phased a := by
    obtain ⟨-, rfl⟩ := initializeAuction_ok ha
    exact ⟨⟨nofun, nofun⟩, fun _ => rfl⟩
  exact exec_invariant (step env) (I := fun w => Phased w.auction)
    (fun w c w' hw hstep => (step_change hstep).phased hw) hinit calls

variable {env} {w : World}

lemma exec_config (calls : List (Msg env × Call)) :
    (exec (step env) w calls).auction.config = w.auction.config :=
  exec_invariant (step env) (I := fun w' => w'.auction.config = w.auction.config)
    (fun _ _ _ hw hstep => (step_change hstep).config_eq.trans hw) rfl calls

lemma exec_terminal (ht : World.isTerminal w.auction.state) (calls : List (Msg env × Call)) :
    (exec (step env) w calls).auction.state = w.auction.state :=
  exec_invariant (step env) (I := fun w' => w'.auction.state = w.auction.state)
    (fun _ _ _ hw hstep => ((step_change hstep).terminal (hw ▸ ht)).trans hw) rfl calls

lemma exec_bids (hb : w.auction.bids ≠ []) (calls : List (Msg env × Call)) :
    (exec (step env) w calls).auction.bids ≠ [] := by
  refine exec_invariant (step env) (I := fun w' => w'.auction.bids ≠ []) (fun w' c w'' hw hstep => ?_) hb calls
  obtain ⟨b, rest, heq⟩ := List.exists_cons_of_ne_nil hw
  obtain ⟨b', hb', -⟩ := (step_change hstep).holding_kept (show w'.auction.bids[0]? = some b by rw [heq]; rfl)
  rintro hnil
  rw [hnil] at hb'
  cases hb'

/-! ### Payments -/

/-- The call pays out bid `i`. -/
def paysOut (env : Env) (i : Nat) (w : World) (c : Msg env × Call) : Bool :=
  match c.2 with
  | .claim j => decide (j = i) && (w.claim env i).toOption.isSome
  | _ => false

/-- How many calls of a run pay out bid `i`. -/
def payments (env : Env) (i : Nat) : World → List (Msg env × Call) → Nat
  | _, [] => 0
  | w, c :: calls => (paysOut env i w c).toNat + payments env i (advance (step env) w c) calls

def isClaimed (a : SealedBidAuction) (i : Nat) : Bool := (a.bids[i]?.map Bid.claimed).getD false

lemma isClaimed_advance {i : Nat} (c : Msg env × Call) (h : isClaimed w.auction i = true) :
    isClaimed (advance (step env) w c).auction i = true := by
  refine advance_induct (step env) (P := fun w' => isClaimed w'.auction i = true) h fun w' hstep => ?_
  unfold isClaimed at h ⊢
  cases hb : w.auction.bids[i]? with
  | none =>
    rw [hb] at h
    cases h
  | some b =>
    rw [hb] at h
    obtain ⟨b', hb', -, -, hclaimed⟩ := (step_change hstep).holding_kept hb
    rw [hb']
    exact hclaimed h

lemma paysOut_claims {i : Nat} {c : Msg env × Call} (h : paysOut env i w c = true) :
    isClaimed w.auction i = false ∧ isClaimed (advance (step env) w c).auction i = true := by
  obtain ⟨msg, c⟩ := c
  cases c with
  | claim j =>
    simp only [paysOut, Bool.and_eq_true, decide_eq_true_eq] at h
    obtain ⟨rfl, hsome⟩ := h
    cases hclaim : w.claim env j with
    | error e =>
      rw [hclaim] at hsome
      cases hsome
    | ok out =>
      obtain ⟨w', tokens, refund⟩ := out
      obtain ⟨b, hb, hc, -, -, sale, quote, -, -, hw'⟩ := World.claim_ok hclaim
      have hstep : step env w (msg, .claim j) = .ok w' := by
        simp only [step, bind_eq_ok]
        exact ⟨_, hclaim, rfl⟩
      rw [advance_of_ok _ hstep, hw']
      constructor
      · unfold isClaimed
        rw [hb]
        exact hc
      · unfold isClaimed World.afterClaim
        rw [List.getElem?_set_self (List.getElem?_eq_some_iff.mp hb).1]
        rfl
  | _ => cases h

lemma payments_le (i : Nat) (calls : List (Msg env × Call)) :
    payments env i w calls + (isClaimed w.auction i).toNat ≤ 1 := by
  induction calls generalizing w with
  | nil =>
    unfold payments
    have := Bool.toNat_le (isClaimed w.auction i)
    omega
  | cons c calls ih =>
    have hrest := ih (w := advance (step env) w c)
    unfold payments
    cases hp : paysOut env i w c with
    | true =>
      obtain ⟨hbefore, hafter⟩ := paysOut_claims hp
      rw [hafter] at hrest
      rw [hbefore]
      simp only [Bool.toNat_true, Bool.toNat_false] at hrest ⊢
      omega
    | false =>
      cases hc : isClaimed w.auction i with
      | true =>
        rw [isClaimed_advance c hc] at hrest
        simp only [Bool.toNat_true, Bool.toNat_false] at hrest ⊢
        omega
      | false =>
        simp only [Bool.toNat_false] at hrest ⊢
        omega

end Runs

end Peal.Auction
