import Peal.Auction.Lifecycle
import Peal.Auction.Recovery
import Peal.Auction.SaleAccounting

namespace Peal.Auction
open Peal.Fallible Peal.Runs Peal.Rows SealedBidAuction

/-! # Every auction with bids can be brought to an end that pays them -/

/-- The functions of the auction itself. -/
def Call.ofAuction : Call → Prop
  | .registerCommitteeSet _ _ => False
  | .elsewhere _ _ => False
  | _ => True

/-- Claiming bid `i` pays its bidder, the whole escrow when the auction failed. -/
def ClaimPays (env : Env) (w : World) (i : Nat) (b : Bid) : Prop :=
  ∃ w' tokens refund, w.claim env i = .ok (w', tokens, refund) ∧
    w'.sale.balanceOf b.bidder = w.sale.balanceOf b.bidder + tokens ∧
    w'.quote.balanceOf b.bidder = w.quote.balanceOf b.bidder + refund ∧
    (w.auction.state = .failed → refund = b.escrow)

/-- The auction has ended, and every unclaimed bid can be claimed. -/
def Ended (env : Env) (w : World) : Prop :=
  (w.auction.state = .settled ∨ w.auction.state = .failed) ∧
    ∀ i b, w.auction.bids[i]? = some b → b.claimed = false → ClaimPays env w i b

/-- Past both deadlines any account can end an auction that has bids, by the same calls to it. -/
def ExitOpen (env : Env) (w : World) : Prop :=
  w.auction.bids ≠ [] → ∃ exit : List Call, (∀ c ∈ exit, c.ofAuction) ∧
    ∀ msg : Msg env, w.auction.config.endTime ≤ msg.timestamp →
      w.auction.config.revealDeadline ≤ msg.timestamp →
        Ended env (exec (step env) w (exit.map fun c => (msg, c)))

section Claims

variable {env : Env} {w w' : World}

lemma paySaleIfAny_receives {recipient amount : Nat} (hr : recipient ≠ env.self)
    (h : w.paySaleIfAny env recipient amount = .ok w') :
    w'.sale.balanceOf recipient = w.sale.balanceOf recipient + amount ∧ w'.quote = w.quote := by
  unfold World.paySaleIfAny at h
  split_ifs at h with hpos
  · simp only [World.paySale, bind_eq_ok, ERC20.transfer_eq_ok, Except.ok.injEq] at h
    obtain ⟨sale, ⟨-, -, rfl⟩, rfl⟩ := h
    exact ⟨ERC20.move_in hr, rfl⟩
  · obtain rfl := Except.ok.inj h
    exact ⟨by omega, rfl⟩

lemma payQuoteIfAny_receives {recipient amount : Nat} (hr : recipient ≠ env.self)
    (h : w.payQuoteIfAny env recipient amount = .ok w') :
    w'.quote.balanceOf recipient = w.quote.balanceOf recipient + amount ∧ w'.sale = w.sale := by
  unfold World.payQuoteIfAny at h
  split_ifs at h with hpos
  · simp only [World.payQuote, bind_eq_ok, ERC20.transfer_eq_ok, Except.ok.injEq] at h
    obtain ⟨quote, ⟨-, -, rfl⟩, rfl⟩ := h
    exact ⟨ERC20.move_in hr, rfl⟩
  · obtain rfl := Except.ok.inj h
    exact ⟨by omega, rfl⟩

lemma claim_receives {i tokens refund : Nat} {b : Bid} (hb : w.auction.bids[i]? = some b)
    (hbidder : b.bidder ≠ env.self) (h : w.claim env i = .ok (w', tokens, refund)) :
    w'.sale.balanceOf b.bidder = w.sale.balanceOf b.bidder + tokens ∧
      w'.quote.balanceOf b.bidder = w.quote.balanceOf b.bidder + refund := by
  have hbid := bid_of_getElem? hb
  simp only [World.claim, bind_eq_ok, require_eq_ok, hbid] at h
  obtain ⟨-, -, -, -, -, -, ⟨t, r⟩, -, w₁, h₁, w₂, h₂, heq⟩ := h
  simp only [Except.ok.injEq, Prod.mk.injEq] at heq
  obtain ⟨rfl, rfl, rfl⟩ := heq
  obtain ⟨hsale, hquote₁⟩ := paySaleIfAny_receives hbidder h₁
  obtain ⟨hquote, hsale₂⟩ := payQuoteIfAny_receives hbidder h₂
  rw [hsale₂, hsale, hquote, hquote₁]
  exact ⟨rfl, rfl⟩

lemma ended_of_solvent (h : Invariant env w) (hbidders : ∀ b ∈ w.auction.bids, b.bidder ≠ env.self)
    (hsol : Solvent env w) (hs : w.auction.state = .settled ∨ w.auction.state = .failed) : Ended env w := by
  refine ⟨hs, fun i b hb hc => ?_⟩
  have hmem : b ∈ w.auction.bids := List.mem_of_getElem? hb
  rcases hs with hs | hs
  · obtain ⟨w', tokens, refund, hclaim⟩ := ((honoured_of_solvent h hsol).2 hs).1 i b hb hc
    obtain ⟨hsale, hquote⟩ := claim_receives hb (hbidders b hmem) hclaim
    exact ⟨w', tokens, refund, hclaim, hsale, hquote, fun hf => absurd (hs.symm.trans hf) (by decide)⟩
  · have hne : w.auction.state ≠ .settled := by
      rw [hs]
      decide
    have hopen : isUnclaimed b = true := by
      unfold isUnclaimed
      rw [hc]
      rfl
    have hcovered : b.escrow ≤ w.quote.balanceOf env.self := by
      unfold Solvent at hsol
      rw [quoteOwed_unsettled hne] at hsol
      exact (le_sumWhere hmem hopen).trans hsol
    have hamounts : w.auction.claimAmounts b = .ok (0, b.escrow) := by
      unfold claimAmounts
      rw [if_neg hne]
    obtain ⟨w', hclaim⟩ := World.claim_succeeds hb (h.tallied.bidder_ne_zero b hmem) hc (Or.inr (Or.inl hs))
      hamounts (Nat.zero_le _) hcovered
    obtain ⟨hsale, hquote⟩ := claim_receives hb (hbidders b hmem) hclaim
    exact ⟨w', 0, b.escrow, hclaim, hsale, hquote, fun _ => rfl⟩

end Claims

/-! ### The way out -/

section Exit

variable {env : Env} {w w' : World}

def World.inState (w : World) (s : State) : World := { w with auction := { w.auction with state := s } }

/-- Close the commit phase if it is still open, then give up waiting for the reveal. -/
def wayOut : List Call := [.closeCommit, .failOnRevealTimeout]

lemma closeCommit_step {msg : Msg env} (hs : w.auction.state = .commitOpen)
    (htime : w.auction.config.endTime ≤ msg.timestamp) (hb : w.auction.bids ≠ []) :
    step env w (msg, .closeCommit) = .ok (w.inState .commitClosed) := by
  have hcount : w.auction.committedBidCount ≠ 0 := fun h => hb (List.length_eq_zero_iff.mp h)
  simp only [step, World.onAuction, closeCommit, bind_eq_ok, inState_eq_ok, require_eq_ok]
  refine ⟨_, ⟨(), hs, (), htime, rfl⟩, ?_⟩
  rw [if_neg hcount]
  rfl

lemma failOnRevealTimeout_step {msg : Msg env}
    (hs : w.auction.state = .commitClosed ∨ w.auction.state = .revealing)
    (htime : w.auction.config.revealDeadline ≤ msg.timestamp) :
    step env w (msg, .failOnRevealTimeout) = .ok (w.inState .failed) := by
  simp only [step, World.onAuction, failOnRevealTimeout, bind_eq_ok, require_eq_ok]
  exact ⟨_, ⟨(), htime, (), hs, rfl⟩, rfl⟩

lemma closeCommit_refused {msg : Msg env} (hs : w.auction.state ≠ .commitOpen) :
    advance (step env) w (msg, .closeCommit) = w := by
  unfold advance
  cases hstep : step env w (msg, .closeCommit) with
  | error e => rfl
  | ok w' =>
    obtain ⟨a', ha, -⟩ := World.onAuction_ok hstep
    exact absurd (closeCommit_ok ha).1 hs

lemma failOnRevealTimeout_refused {msg : Msg env}
    (hs : ¬(w.auction.state = .commitClosed ∨ w.auction.state = .revealing)) :
    advance (step env) w (msg, .failOnRevealTimeout) = w := by
  unfold advance
  cases hstep : step env w (msg, .failOnRevealTimeout) with
  | error e => rfl
  | ok w' =>
    obtain ⟨a', ha, -⟩ := World.onAuction_ok hstep
    exact absurd (failOnRevealTimeout_ok ha).1 hs

lemma exec_wayOut (hp : Phased w.auction) (hb : w.auction.bids ≠ []) {msg : Msg env}
    (hend : w.auction.config.endTime ≤ msg.timestamp)
    (hreveal : w.auction.config.revealDeadline ≤ msg.timestamp) :
    exec (step env) w (wayOut.map fun c => (msg, c)) =
      w.inState (if w.auction.state = .settled then .settled else .failed) := by
  have hsame (s : State) (hs : w.auction.state = s) : w = w.inState s := by
    rw [← hs]
    rfl
  unfold wayOut
  rw [List.map_cons, List.map_cons, List.map_nil, exec_cons, exec_cons, exec_nil]
  cases hs : w.auction.state with
  | created => exact absurd (hp.nobody (Or.inl hs)) hb
  | funded => exact absurd (hp.nobody (Or.inr (Or.inl hs))) hb
  | cancelled => exact absurd (hp.nobody (Or.inr (Or.inr hs))) hb
  | revealPending => exact absurd hs hp.used.1
  | readyToSettle => exact absurd hs hp.used.2
  | commitOpen =>
    rw [advance_of_ok _ (closeCommit_step hs hend hb),
      advance_of_ok _ (failOnRevealTimeout_step (w := w.inState .commitClosed) (Or.inl rfl) hreveal)]
    rfl
  | commitClosed =>
    rw [closeCommit_refused (by rw [hs]; decide), advance_of_ok _ (failOnRevealTimeout_step (Or.inl hs) hreveal)]
    rfl
  | revealing =>
    rw [closeCommit_refused (by rw [hs]; decide), advance_of_ok _ (failOnRevealTimeout_step (Or.inr hs) hreveal)]
    rfl
  | settled =>
    rw [closeCommit_refused (by rw [hs]; decide), failOnRevealTimeout_refused (by rw [hs]; decide)]
    exact hsame _ hs
  | failed =>
    rw [closeCommit_refused (by rw [hs]; decide), failOnRevealTimeout_refused (by rw [hs]; decide)]
    exact hsame _ hs

variable (env) {registry : CommitteeRegistry} {cfg : Config} {a : SealedBidAuction}

lemma exitOpen_of_solvent (ha : initializeAuction registry cfg = .ok a) (sale quote : ERC20)
    (calls : List (Msg env × Call))
    (hsol : (exec (step env) ⟨a, registry, sale, quote⟩ calls).auction.state = .settled →
      Solvent env (exec (step env) ⟨a, registry, sale, quote⟩ calls)) :
    ExitOpen env (exec (step env) ⟨a, registry, sale, quote⟩ calls) := by
  intro hb
  refine ⟨wayOut, ?_, fun msg hend hreveal => ?_⟩
  · intro c hc
    rcases List.mem_cons.mp hc with rfl | hc
    · trivial
    · rw [List.mem_singleton.mp hc]
      trivial
  · have hout := exec_wayOut (exec_phased env ha sale quote calls) hb hend hreveal
    have hinv := solvent_unless_settled ha sale quote (calls ++ wayOut.map fun c => (msg, c))
    have hexact := exec_exact (exact_initial env ha sale quote) (calls ++ wayOut.map fun c => (msg, c))
    rw [exec_append] at hinv hexact
    obtain ⟨hinv, hunsettled⟩ := hinv
    by_cases hs : (exec (step env) ⟨a, registry, sale, quote⟩ calls).auction.state = .settled
    · have hstay : exec (step env) (exec (step env) ⟨a, registry, sale, quote⟩ calls)
          (wayOut.map fun c => (msg, c)) = exec (step env) ⟨a, registry, sale, quote⟩ calls := by
        rw [hout, if_pos hs, ← hs]
        rfl
      rw [hstay] at hinv hexact ⊢
      exact ended_of_solvent hinv hexact.bidders (hsol hs) (Or.inl hs)
    · have hfailed : (exec (step env) (exec (step env) ⟨a, registry, sale, quote⟩ calls)
          (wayOut.map fun c => (msg, c))).auction.state = .failed := by
        rw [hout, if_neg hs]
        rfl
      exact ended_of_solvent hinv hexact.bidders (hunsettled (by rw [hfailed]; decide)) (Or.inr hfailed)

/-- The life of an auction, over any run from an accepted configuration. -/
theorem lifecycle (ha : initializeAuction registry cfg = .ok a) (sale quote : ERC20)
    (calls : List (Msg env × Call)) :
    let start : World := ⟨a, registry, sale, quote⟩
    (∀ n m, n ≤ m → World.isTerminal (exec (step env) start (calls.take n)).auction.state →
      (exec (step env) start (calls.take m)).auction.state =
        (exec (step env) start (calls.take n)).auction.state) ∧
      (∀ i, payments env i start calls ≤ 1) ∧
      (∀ n m, n ≤ m → (exec (step env) start (calls.take n)).auction.bids ≠ [] →
        (exec (step env) start (calls.take m)).auction.state ≠ .cancelled) ∧
      Throughout (step env) (fun w => w.auction.state ≠ .settled → ExitOpen env w) start calls ∧
      (Along (step env) (FinalizeCovered env) start calls → Throughout (step env) (ExitOpen env) start calls) := by
  intro start
  have hlater (n m : Nat) (hle : n ≤ m) : exec (step env) start (calls.take m) =
      exec (step env) (exec (step env) start (calls.take n)) ((calls.take m).drop n) := by
    have hsplit : calls.take m = calls.take n ++ (calls.take m).drop n := by
      conv_lhs => rw [← List.take_append_drop n (calls.take m), List.take_take, min_eq_left hle]
    conv_lhs => rw [hsplit]
    exact exec_append (step env) _ _ _
  refine ⟨fun n m hle ht => ?_, fun i => ?_, fun n m hle hb hs => ?_, fun n hs => ?_, fun hcov n => ?_⟩
  · rw [hlater n m hle]
    exact exec_terminal ht _
  · have := payments_le (w := start) i calls
    omega
  · have hbids := exec_bids hb ((calls.take m).drop n)
    rw [← hlater n m hle] at hbids
    exact hbids ((exec_phased env ha sale quote (calls.take m)).nobody (Or.inr (Or.inr hs)))
  · exact exitOpen_of_solvent env ha sale quote (calls.take n) fun h => absurd h hs
  · have hhonoured := (quote_solvency_iff env ha sale quote calls).mpr hcov n
    exact exitOpen_of_solvent env ha sale quote (calls.take n) fun _ => hhonoured.1

end Exit

/-! ### A bid nobody can pay -/

/-- The sample sale settles; its issuer and its first bidder then take all it holds. -/
def drainingCalls : List (Msg sampleEnv × Call) :=
  sampleCalls ++ [(sampleMsg 20 24 seller_sender, .claimProceeds), (sampleMsg 40 25 bidder_sender, .claim 0)]

theorem lifecycle_sample :
    (∀ n m, n ≤ m → World.isTerminal (exec (step sampleEnv) sampleWorld (drainingCalls.take n)).auction.state →
      (exec (step sampleEnv) sampleWorld (drainingCalls.take m)).auction.state =
        (exec (step sampleEnv) sampleWorld (drainingCalls.take n)).auction.state) ∧
      (∀ i, payments sampleEnv i sampleWorld drainingCalls ≤ 1) ∧
      (∀ n m, n ≤ m → (exec (step sampleEnv) sampleWorld (drainingCalls.take n)).auction.bids ≠ [] →
        (exec (step sampleEnv) sampleWorld (drainingCalls.take m)).auction.state ≠ .cancelled) ∧
      Throughout (step sampleEnv) (fun w => w.auction.state ≠ .settled → ExitOpen sampleEnv w) sampleWorld
        drainingCalls ∧
      (Along (step sampleEnv) (FinalizeCovered sampleEnv) sampleWorld drainingCalls →
        Throughout (step sampleEnv) (ExitOpen sampleEnv) sampleWorld drainingCalls) :=
  lifecycle sampleEnv (show initializeAuction sampleRegistry sampleConfig = .ok sampleAuction from rfl)
    sampleToken sampleToken drainingCalls

def drainedWorld : World := exec (step sampleEnv) sampleWorld drainingCalls

lemma drained_refuses (c : Call) (hc : c.ofAuction) :
    ∃ e, step sampleEnv drainedWorld (sampleRelay 100, c) = .error e := by
  have hs : drainedWorld.auction.state = .settled := by decide +kernel
  have hissuer : (sampleRelay 100).sender ≠ drainedWorld.auction.config.issuer := by decide +kernel
  have hcount : drainedWorld.auction.bids.length = 2 := by decide +kernel
  cases hstep : step sampleEnv drainedWorld (sampleRelay 100, c) with
  | error e => exact ⟨e, rfl⟩
  | ok w' =>
    exfalso
    rcases settled_accepts hs hstep with ⟨i, rfl⟩ | ⟨-, heq⟩ | ⟨threshold, members, rfl⟩ | ⟨sale, quote, rfl⟩
    · simp only [step, bind_eq_ok] at hstep
      obtain ⟨⟨w₁, tokens, refund⟩, hclaim, -⟩ := hstep
      obtain ⟨b, hb, -⟩ := World.claim_ok hclaim
      have hi : i < 2 := hcount ▸ (List.getElem?_eq_some_iff.mp hb).1
      have hnone : ∀ i < 2, (drainedWorld.claim sampleEnv i).toOption.isSome = false := by decide +kernel
      have := hnone i hi
      rw [hclaim] at this
      cases this
    · exact hissuer heq
    · exact hc
    · exact hc

/-- The auction settled with two bids, and the exit is closed: the second bid can never be claimed. -/
theorem lifecycle_fails : initializeAuction sampleRegistry sampleConfig = .ok sampleAuction ∧
    drainedWorld.auction.bids ≠ [] ∧ ¬ExitOpen sampleEnv drainedWorld := by
  have hbids : drainedWorld.auction.bids ≠ [] := by decide +kernel
  refine ⟨rfl, hbids, fun hexit => ?_⟩
  obtain ⟨exit, hown, hends⟩ := hexit hbids
  have hended := hends (sampleRelay 100) (by decide +kernel) (by decide +kernel)
  have hsame : exec (step sampleEnv) drainedWorld (exit.map fun c => (sampleRelay 100, c)) = drainedWorld := by
    apply exec_of_refused
    intro x hx
    obtain ⟨c, hc, rfl⟩ := List.mem_map.mp hx
    exact drained_refuses c (hown c hc)
  rw [hsame] at hended
  obtain ⟨w', tokens, refund, hclaim, -⟩ := hended.2 1 (drainedWorld.auction.bid 1) (by decide +kernel)
    (by decide +kernel)
  have hnone : (drainedWorld.claim sampleEnv 1).toOption.isSome = false := by decide +kernel
  rw [hclaim] at hnone
  cases hnone

end Peal.Auction
