import Peal.Auction.Exit
import Peal.Auction.Factory

namespace Peal.Auction
open Peal.Fallible Peal.Runs SealedBidAuction

/-! # Every auction of a market runs as if it were alone

What happens elsewhere in the market is, to one auction, other accounts' business on its two tokens: none of it can
take anything from the auction, for its address has approved nobody. -/

/-- Only the accounts in `payers` pay, and only those in `approvers` change what they approve. -/
structure Spends (payers approvers : Nat → Prop) (t t' : ERC20) : Prop where
  balance : ∀ a, ¬payers a → t.balanceOf a ≤ t'.balanceOf a
  allowance : ∀ a, ¬approvers a → t'.allowance a = t.allowance a

def nobody : Nat → Prop := fun _ => False

namespace Spends

variable {p p' q q' : Nat → Prop} {t t' t'' : ERC20}

lemma refl (p q : Nat → Prop) (t : ERC20) : Spends p q t t := ⟨fun _ _ => le_refl _, fun _ _ => rfl⟩

lemma trans (h : Spends p q t t') (h' : Spends p q t' t'') : Spends p q t t'' :=
  ⟨fun a ha => (h.balance a ha).trans (h'.balance a ha), fun a ha => (h'.allowance a ha).trans (h.allowance a ha)⟩

lemma weaken (h : Spends p q t t') (hp : ∀ a, p a → p' a) (hq : ∀ a, q a → q' a) : Spends p' q' t t' :=
  ⟨fun a ha => h.balance a fun h => ha (hp a h), fun a ha => h.allowance a fun h => ha (hq a h)⟩

lemma move (t : ERC20) (sender recipient amount : Nat) :
    Spends (· = sender) nobody t (t.move sender recipient amount) := by
  refine ⟨fun a ha => ?_, fun _ _ => rfl⟩
  rw [ERC20.move_balance_of_ne t ha]
  omega

lemma transfer {sender recipient amount : Nat} (h : t.transfer sender recipient amount = .ok t') :
    Spends (· = sender) nobody t t' := by
  obtain ⟨-, -, rfl⟩ := ERC20.transfer_eq_ok.mp h
  exact move t sender recipient amount

lemma approve (t : ERC20) (owner spender amount : Nat) :
    Spends nobody (· = owner) t (t.approve owner spender amount) :=
  ⟨fun _ _ => le_refl _, fun _ ha => Function.update_of_ne ha _ _⟩

lemma transferFrom {spender sender recipient amount : Nat}
    (h : t.transferFrom spender sender recipient amount = .ok t') : Spends (· = sender) (· = sender) t t' := by
  unfold ERC20.transferFrom at h
  simp only [bind_eq_ok] at h
  obtain ⟨-, -, h⟩ := h
  have hpaid : Spends (· = sender) (· = sender) _ _ := (transfer h).weaken (fun _ h => h) fun _ h => h.elim
  split_ifs at hpaid
  · exact hpaid
  · exact ((approve t sender spender _).weaken (fun _ h => h.elim) fun _ h => h).trans hpaid

lemma mint (t : ERC20) (recipient amount : Nat) : Spends nobody nobody t (t.mint recipient amount) := by
  refine ⟨fun a _ => ?_, fun _ _ => rfl⟩
  unfold ERC20.mint
  dsimp only
  by_cases ha : a = recipient
  · rw [ha, Function.update_self]
    omega
  · rw [Function.update_of_ne ha]

end Spends

/-! ## What an auction's own call leaves alone -/

/-- The tokens of the world after an auction's call: the auction paid, and the account that called it. -/
structure Frame (env : Env) (sender : Nat) (w w' : World) : Prop where
  sale : Spends (fun a => a = env.self ∨ a = sender) (· = sender) w.sale w'.sale
  quote : Spends (fun a => a = env.self ∨ a = sender) (· = sender) w.quote w'.quote
  registry : w'.registry = w.registry

section Frames

variable {env : Env} {w w' : World} {msg : Msg env} {sender : Nat}

lemma Frame.refl (w : World) : Frame env sender w w := ⟨.refl _ _ _, .refl _ _ _, rfl⟩

lemma Frame.trans {w'' : World} (h : Frame env sender w w') (h' : Frame env sender w' w'') : Frame env sender w w'' :=
  ⟨h.sale.trans h'.sale, h.quote.trans h'.quote, h'.registry.trans h.registry⟩

lemma Frame.storage (a : SealedBidAuction) (h : Frame env sender w w') : Frame env sender { w with auction := a } w' :=
  ⟨h.sale, h.quote, h.registry⟩

lemma frame_onAuction {x : Except Revert SealedBidAuction} (h : w.onAuction x = .ok w') : Frame env sender w w' := by
  obtain ⟨a, -, rfl⟩ := World.onAuction_ok h
  exact ⟨.refl _ _ _, .refl _ _ _, rfl⟩

lemma frame_paySale {recipient amount : Nat} (h : w.paySale env recipient amount = .ok w') :
    Frame env sender w w' := by
  simp only [World.paySale, bind_eq_ok, Except.ok.injEq] at h
  obtain ⟨sale, hsale, rfl⟩ := h
  exact ⟨(Spends.transfer hsale).weaken (fun _ ha => .inl ha) fun _ ha => ha.elim, .refl _ _ _, rfl⟩

lemma frame_paySaleIfAny {recipient amount : Nat} (h : w.paySaleIfAny env recipient amount = .ok w') :
    Frame env sender w w' := by
  unfold World.paySaleIfAny at h
  split_ifs at h
  · exact frame_paySale h
  · rw [← Except.ok.inj h]
    exact .refl w

lemma frame_payQuoteIfAny {recipient amount : Nat} (h : w.payQuoteIfAny env recipient amount = .ok w') :
    Frame env sender w w' := by
  unfold World.payQuoteIfAny at h
  split_ifs at h
  · simp only [World.payQuote, bind_eq_ok, Except.ok.injEq] at h
    obtain ⟨quote, hquote, rfl⟩ := h
    exact ⟨.refl _ _ _, (Spends.transfer hquote).weaken (fun _ ha => .inl ha) fun _ ha => ha.elim, rfl⟩
  · rw [← Except.ok.inj h]
    exact .refl w

lemma frame_fund (h : w.fund env msg = .ok w') : Frame env msg.sender w w' := by
  simp only [World.fund, bind_eq_ok, Except.ok.injEq] at h
  obtain ⟨-, -, sale, hsale, -, -, -, -, rfl⟩ := h
  exact ⟨(Spends.transferFrom hsale).weaken (fun _ ha => .inr ha) fun _ ha => ha, .refl _ _ _, rfl⟩

lemma frame_cancel (h : w.cancel env msg = .ok w') : Frame env msg.sender w w' := by
  simp only [World.cancel, bind_eq_ok] at h
  obtain ⟨-, -, h⟩ := h
  split_ifs at h
  · rw [← Except.ok.inj h]
    exact ⟨.refl _ _ _, .refl _ _ _, rfl⟩
  · have hpaid : Frame env msg.sender { w with auction := { w.auction with state := .cancelled } } w' := frame_paySale h
    exact hpaid.storage w.auction

lemma frame_commitBid {commitment ciphertextHash escrowAmount : Nat} {allowlistProof : List Nat}
    (h : w.commitBid env msg commitment ciphertextHash escrowAmount allowlistProof = .ok w') :
    Frame env msg.sender w w' := by
  simp only [World.commitBid, bind_eq_ok, Except.ok.injEq] at h
  obtain ⟨-, -, -, -, -, -, -, -, -, -, -, -, -, -, quote, hquote, -, -, -, -, -, -, rfl⟩ := h
  exact ⟨.refl _ _ _, (Spends.transferFrom hquote).weaken (fun _ ha => .inr ha) fun _ ha => ha, rfl⟩

lemma frame_commitBidWithPermit {commitment ciphertextHash escrowAmount : Nat} {allowlistProof : List Nat}
    {accepted : Bool}
    (h : w.commitBidWithPermit env msg commitment ciphertextHash escrowAmount allowlistProof accepted = .ok w') :
    Frame env msg.sender w w' := by
  simp only [World.commitBidWithPermit, bind_eq_ok] at h
  obtain ⟨-, -, h⟩ := h
  cases accepted with
  | false => exact frame_commitBid h
  | true =>
    have hpermit : Frame env msg.sender w { w with quote := w.quote.approve msg.sender env.self escrowAmount } :=
      ⟨.refl _ _ _, (Spends.approve _ _ _ _).weaken (fun _ ha => ha.elim) fun _ ha => ha, rfl⟩
    exact hpermit.trans (frame_commitBid h)

lemma frame_claim {i tokens refund : Nat} (h : w.claim env i = .ok (w', tokens, refund)) : Frame env sender w w' := by
  simp only [World.claim, bind_eq_ok] at h
  obtain ⟨-, -, -, -, -, -, amounts, -, paid, hpaid, done, hdone, heq⟩ := h
  obtain ⟨rfl, -⟩ := Prod.mk.inj (Except.ok.inj heq)
  have hsale : Frame env sender _ paid := frame_paySaleIfAny hpaid
  exact (hsale.storage w.auction).trans (frame_payQuoteIfAny hdone)

lemma frame_claimProceeds (h : w.claimProceeds env msg = .ok w') : Frame env msg.sender w w' := by
  simp only [World.claimProceeds, bind_eq_ok] at h
  obtain ⟨-, -, -, -, -, -, net, -, paid, hpaid, hrest⟩ := h
  have hfee : Frame env msg.sender _ paid := frame_payQuoteIfAny hpaid
  exact (hfee.storage w.auction).trans (frame_payQuoteIfAny hrest)

lemma frame_claimUnsold (h : w.claimUnsold env msg = .ok w') : Frame env msg.sender w w' := by
  simp only [World.claimUnsold, bind_eq_ok] at h
  obtain ⟨-, -, -, -, -, -, unsold, -, hpaid⟩ := h
  have hsale : Frame env msg.sender _ w' := frame_paySaleIfAny hpaid
  exact hsale.storage w.auction

theorem step_frame {c : Call} (hown : c.own = true) (h : step env w (msg, c) = .ok w') :
    Frame env msg.sender w w' := by
  cases c with
  | fund => exact frame_fund h
  | cancel => exact frame_cancel h
  | commitBid commitment ciphertextHash escrowAmount allowlistProof => exact frame_commitBid h
  | commitBidWithPermit commitment ciphertextHash escrowAmount allowlistProof accepted =>
    exact frame_commitBidWithPermit h
  | claim i =>
    simp only [step, bind_eq_ok] at h
    obtain ⟨⟨w₁, tokens, refund⟩, hclaim, heq⟩ := h
    obtain rfl := Except.ok.inj heq
    exact frame_claim hclaim
  | claimProceeds => exact frame_claimProceeds h
  | claimUnsold => exact frame_claimUnsold h
  | registerCommitteeSet threshold members => cases hown
  | elsewhere sale quote => cases hown
  | openCommit | registerBatch | closeCommit | registerRevealRoot | processReveals | disputeVoid | finalize
  | failOnRevealTimeout => exact frame_onAuction h

end Frames

lemma Change.funded {a a' : SealedBidAuction} (h : Change a a') (ha : a.state ≠ .created) : a'.state ≠ .created := by
  cases h with
  | same | committed | batched | claimed | paidIssuer => exact ha
  | rooted | settled => exact nofun
  | processed hs hsame =>
    rw [hsame.state]
    exact ha
  | moved hmove => cases hmove <;> exact nofun

/-! ## The market beside an auction -/

section Beside

variable {site : Site} {m m' : Market}

/-- None of the clones pays, and none approves anybody. -/
def Calm (site : Site) (t t' : ERC20) : Prop :=
  ∀ n, t.balanceOf (site.clone n) ≤ t'.balanceOf (site.clone n) ∧
    ∀ spender, t.allowance (site.clone n) spender = 0 → t'.allowance (site.clone n) spender = 0

lemma Spends.calm {p q : Nat → Prop} {t t' : ERC20} (h : Spends p q t t') (hp : ∀ n, ¬p (site.clone n))
    (hq : ∀ n, ¬q (site.clone n)) : Calm site t t' := by
  intro n
  refine ⟨h.balance _ (hp n), fun spender hnone => ?_⟩
  rw [h.allowance _ (hq n)]
  exact hnone

lemma calm_transferFrom {t t' : ERC20} {spender sender recipient amount : Nat}
    (hunspent : ∀ n spender, t.allowance (site.clone n) spender = 0)
    (h : t.transferFrom spender sender recipient amount = .ok t') : Calm site t t' := by
  obtain ⟨hallowed, hbalance, hless⟩ := ERC20.transferFrom_ok h
  intro n
  constructor
  · rw [hbalance]
    by_cases hsender : site.clone n = sender
    · rw [← hsender, hunspent] at hallowed
      have hge := t.move_sender_ge sender recipient amount
      rw [hsender]
      omega
    · rw [ERC20.move_balance_of_ne t hsender]
      omega
  · intro s hs
    have hle := hless (site.clone n) s
    omega

/-- A step of the market that leaves the n-th auction alone. -/
structure Beside (site : Site) (n : Nat) (m m' : Market) : Prop where
  balance : ∀ token, (m.erc20 token).balanceOf (site.clone n) ≤ (m'.erc20 token).balanceOf (site.clone n)
  registry : m'.registry = m.registry

lemma beside_setToken {token : Nat} {t : ERC20} (h : Calm site (m.erc20 token) t) (n : Nat) :
    Beside site n m (m.setToken token t) := by
  refine ⟨fun other => ?_, rfl⟩
  unfold Market.setToken
  dsimp only
  by_cases hother : other = token
  · subst hother
    rw [Function.update_self]
    exact (h n).1
  · rw [Function.update_of_ne hother]

lemma spends_setTokens {p q : Nat → Prop} {cfg : Config} {w : World}
    (hsale : Spends p q (m.erc20 cfg.saleToken) w.sale) (hquote : Spends p q (m.erc20 cfg.quoteToken) w.quote)
    (token : Nat) : Spends p q (m.erc20 token) ((m.setTokens cfg w).erc20 token) := by
  unfold Market.setTokens
  dsimp only
  by_cases hq : token = cfg.quoteToken
  · rw [hq, Function.update_self]
    exact hquote
  · rw [Function.update_of_ne hq]
    by_cases hs : token = cfg.saleToken
    · rw [hs, Function.update_self]
      exact hsale
    · rw [Function.update_of_ne hs]
      exact .refl p q _

lemma world_setTokens {cfg : Config} {w : World} (htokens : cfg.saleToken ≠ cfg.quoteToken)
    (hcfg : w.auction.config = cfg) (hregistry : w.registry = m.registry) :
    (m.setTokens cfg w).world w.auction = w := by
  subst hcfg
  unfold Market.world Market.setTokens
  dsimp only
  rw [Function.update_self, Function.update_of_ne htokens, Function.update_self, ← hregistry]

end Beside

/-! ## Runs of the market, seen from one auction -/

section Runs

variable {site : Site} {m m' : Market} {n : Nat} {d : Deployed}

/-- The n-th auction's part of the market is what a run of the auction alone comes to, in which `own` are the calls of
the auction itself. -/
def RunsAlone (site : Site) (n : Nat) (m : Market) (d : Deployed) (own : List (Msg (site.auction n) × Call)) : Prop :=
  ∃ registry a sale quote calls, initializeAuction registry d.auction.config = .ok a ∧
    calls.filter (fun c => c.2.own) = own ∧
    exec (step (site.auction n)) ⟨a, registry, sale, quote⟩ calls = m.world d.auction

lemma RunsAlone.next {own : List (Msg (site.auction n) × Call)} (h : RunsAlone site n m d own)
    (m' : Market) (d' : Deployed) {c : Msg (site.auction n) × Call} (hcfg : d'.auction.config = d.auction.config)
    (hnext : advance (step (site.auction n)) (m.world d.auction) c = m'.world d'.auction) :
    RunsAlone site n m' d' (own ++ if c.2.own then [c] else []) := by
  obtain ⟨registry, a, sale, quote, calls, ha, hown, hexec⟩ := h
  refine ⟨registry, a, sale, quote, calls ++ [c], hcfg ▸ ha, ?_, ?_⟩
  · rw [List.filter_append, hown, List.filter_cons, List.filter_nil]
  · rw [exec_concat, hexec, hnext]

lemma RunsAlone.beside {own : List (Msg (site.auction n) × Call)} (h : RunsAlone site n m d own) (caller : Caller site)
    (hbeside : Beside site n m m') : RunsAlone site n m' d own := by
  have hnext := h.next m' d (c := (caller.msg n, .elsewhere (m'.erc20 d.auction.config.saleToken)
    (m'.erc20 d.auction.config.quoteToken))) rfl ?_
  · rwa [show Call.own (.elsewhere _ _) = false from rfl, if_neg Bool.false_ne_true, List.append_nil] at hnext
  · have hheld : (m.erc20 d.auction.config.saleToken).balanceOf (site.clone n) ≤
          (m'.erc20 d.auction.config.saleToken).balanceOf (site.clone n) ∧
        (m.erc20 d.auction.config.quoteToken).balanceOf (site.clone n) ≤
          (m'.erc20 d.auction.config.quoteToken).balanceOf (site.clone n) :=
      ⟨hbeside.balance _, hbeside.balance _⟩
    rw [show m'.world d.auction = { m.world d.auction with
      sale := m'.erc20 d.auction.config.saleToken, quote := m'.erc20 d.auction.config.quoteToken } by
        rw [Market.world, hbeside.registry]; rfl]
    exact advance_of_ok _ (bind_eq_ok.mpr ⟨(), require_eq_ok.mpr hheld, rfl⟩)

lemma initialize_tokens {registry : CommitteeRegistry} {cfg : Config} {a : SealedBidAuction}
    (h : initializeAuction registry cfg = .ok a) : cfg.saleToken ≠ cfg.quoteToken := by
  unfold initializeAuction at h
  simp only [bind_eq_ok, require_eq_ok] at h
  obtain ⟨-, -, -, -, -, hne, -⟩ := h
  exact hne

lemma RunsAlone.tokens {own : List (Msg (site.auction n) × Call)} (h : RunsAlone site n m d own) :
    d.auction.config.saleToken ≠ d.auction.config.quoteToken := by
  obtain ⟨_, _, _, _, _, ha, -⟩ := h
  exact initialize_tokens ha

/-- What every reachable market keeps. -/
structure Market.Kept (site : Site) (m : Market) : Prop where
  unspent : ∀ token n spender, (m.erc20 token).allowance (site.clone n) spender = 0
  funded : ∀ d ∈ m.deployed, d.auction.state ≠ .created

/-- What an accepted creation did. -/
structure Creates (site : Site) (m : Market) (caller : Caller site) (c : Creation) (m' : Market) (a : SealedBidAuction)
    (sale : ERC20) (w : World) : Prop where
  label : c.metadataHash = metadataHash site.env.keccak256 c.name c.useCase c.details
  issuer : c.cfg.issuer = caller.sender
  initialized : initializeAuction m.registry c.cfg = .ok a
  pulled : Spends (fun x => x = caller.sender) (fun x => x = caller.sender ∨ x = site.env.self)
    (m.erc20 c.cfg.saleToken) sale
  opened : exec (step (site.auction m.deployed.length)) ⟨a, m.registry, sale, m.erc20 c.cfg.quoteToken⟩
    ((caller.factoryMsg _, .fund) :: if c.cfg.startTime ≤ caller.timestamp then
      [(caller.factoryMsg _, .openCommit)] else []) = w
  frame : Frame (site.auction m.deployed.length) site.env.self
    ⟨a, m.registry, sale, m.erc20 c.cfg.quoteToken⟩ w
  config : w.auction.config = c.cfg
  funded : w.auction.state ≠ .created
  next : m' = { m.setTokens c.cfg w with
    factory := m.factory.list (site.clone m.deployed.length) caller.sender ⟨site.clone m.deployed.length,
      caller.sender, c.cfg.saleToken, c.cfg.quoteToken, c.cfg.totalSupply, c.cfg.startTime, c.cfg.endTime, c.name,
      c.useCase, c.details⟩
    deployed := m.deployed ++ [⟨w.auction, c.metadataHash⟩] }

lemma called_eq_ok {α : Type} {x : Except Revert α} {b : α} : called x = .ok b ↔ x = .ok b := mapError_eq_ok

lemma pullAndApprove_ok {caller : Caller site} {auction : Nat} {cfg : Config} {sale : ERC20}
    (h : m.pullAndApprove site caller auction cfg = .ok sale) :
    Spends (fun x => x = caller.sender) (fun x => x = caller.sender ∨ x = site.env.self)
      (m.erc20 cfg.saleToken) sale := by
  simp only [Market.pullAndApprove, bind_eq_ok, called_eq_ok, Except.ok.injEq] at h
  obtain ⟨pulled, hpulled, -, -, -, -, rfl⟩ := h
  have hpaid : Spends (· = caller.sender) (fun x => x = caller.sender ∨ x = site.env.self) _ pulled :=
    (Spends.transferFrom hpulled).weaken (fun _ hx => hx) fun _ hx => .inl hx
  exact hpaid.trans ((Spends.approve _ _ _ _).weaken (fun _ hx => hx.elim) fun _ hx => .inr hx)

theorem createAuction_ok {caller : Caller site} {c : Creation} (h : m.createAuction site caller c = .ok m') :
    ∃ a sale w, Creates site m caller c m' a sale w := by
  simp only [Market.createAuction, bind_eq_ok, require_eq_ok, called_eq_ok, Except.ok.injEq] at h
  obtain ⟨-, hlabel, -, hissuer, a, ha, sale, hsale, funded, hfund, w, hopen, rfl⟩ := h
  have hstart : a.config = c.cfg := by
    obtain ⟨-, rfl⟩ := initializeAuction_ok ha
    rfl
  have hfunded : step (site.auction m.deployed.length) ⟨a, m.registry, sale, m.erc20 c.cfg.quoteToken⟩
    (caller.factoryMsg _, .fund) = .ok funded := hfund
  have hmoved : funded.auction.config = c.cfg ∧ funded.auction.state ≠ .created := by
    obtain ⟨-, sale', -, rfl⟩ := World.fund_ok hfund
    exact ⟨hstart, State.noConfusion⟩
  have hframe := step_frame (c := .fund) rfl hfunded
  unfold Market.openIfStarted at hopen
  split_ifs at hopen with hstarted
  · have hopened : step (site.auction m.deployed.length) funded (caller.factoryMsg _, .openCommit) = .ok w :=
      called_eq_ok.mp hopen
    have hchange := step_change hopened
    refine ⟨a, sale, w, hlabel, hissuer, ha, pullAndApprove_ok hsale, ?_,
      hframe.trans (step_frame (c := .openCommit) rfl hopened), hchange.config_eq.trans hmoved.1,
      hchange.funded hmoved.2, rfl⟩
    rw [if_pos hstarted, exec_cons, advance_of_ok _ hfunded, exec_cons, advance_of_ok _ hopened, exec_nil]
  · obtain rfl := Except.ok.inj hopen
    refine ⟨a, sale, funded, hlabel, hissuer, ha, pullAndApprove_ok hsale, ?_, hframe, hmoved.1, hmoved.2, rfl⟩
    rw [if_neg hstarted, exec_cons, advance_of_ok _ hfunded, exec_nil]

lemma Creates.spends {caller : Caller site} {c : Creation} {a : SealedBidAuction} {sale : ERC20} {w : World}
    (h : Creates site m caller c m' a sale w) (token : Nat) :
    Spends (fun x => x = caller.sender ∨ x = site.env.self ∨ x = site.clone m.deployed.length)
      (fun x => x = caller.sender ∨ x = site.env.self) (m.erc20 token) (m'.erc20 token) := by
  rw [h.next]
  refine spends_setTokens ?_ ?_ token
  · refine (h.pulled.weaken (fun _ hx => .inl hx) fun _ hx => hx).trans (h.frame.sale.weaken ?_ fun _ hx => .inr hx)
    rintro x (hself | hfactory)
    · exact .inr (.inr hself)
    · exact .inr (.inl hfactory)
  · refine h.frame.quote.weaken ?_ fun _ hx => .inr hx
    rintro x (hself | hfactory)
    · exact .inr (.inr hself)
    · exact .inr (.inl hfactory)

/-- An accepted call of an auction. -/
structure Serves (site : Site) (m : Market) (caller : Caller site) (n : Nat) (c : Call) (m' : Market) (d : Deployed)
    (w : World) : Prop where
  own : c.own = true
  found : m.deployed[n]? = some d
  stepped : step (site.auction n) (m.world d.auction) (caller.msg n, c) = .ok w
  next : m' = m.put n d w

lemma call_ok {caller : Caller site} {c : Call} (h : m.step site (caller, .call n c) = .ok m') :
    ∃ d w, Serves site m caller n c m' d w := by
  simp only [Market.step, bind_eq_ok, require_eq_ok, expect_eq_ok, called_eq_ok, Except.ok.injEq] at h
  obtain ⟨-, hown, d, hd, w, hw, rfl⟩ := h
  exact ⟨d, w, hown, hd, hw, rfl⟩

section Calls

variable {caller : Caller site} {c : Call} {w : World}

lemma Serves.frame (h : Serves site m caller n c m' d w) : Frame (site.auction n) caller.sender (m.world d.auction) w :=
  step_frame h.own h.stepped

lemma Serves.spends (h : Serves site m caller n c m' d w) (token : Nat) :
    Spends (fun x => x = site.clone n ∨ x = caller.sender) (· = caller.sender) (m.erc20 token) (m'.erc20 token) := by
  rw [h.next]
  exact spends_setTokens h.frame.sale h.frame.quote token

lemma Serves.config (h : Serves site m caller n c m' d w) : w.auction.config = d.auction.config :=
  (step_change h.stepped).config_eq

lemma Serves.world (h : Serves site m caller n c m' d w)
    (htokens : d.auction.config.saleToken ≠ d.auction.config.quoteToken) : m'.world w.auction = w := by
  rw [h.next]
  exact world_setTokens htokens h.config h.frame.registry

end Calls

lemma kept_setToken {token : Nat} {t : ERC20} (h : m.Kept site) (ht : Calm site (m.erc20 token) t) :
    (m.setToken token t).Kept site := by
  refine ⟨fun other n spender => ?_, h.funded⟩
  unfold Market.setToken
  dsimp only
  by_cases hother : other = token
  · subst hother
    rw [Function.update_self]
    exact (ht n).2 spender (h.unspent other n spender)
  · rw [Function.update_of_ne hother]
    exact h.unspent other n spender

lemma calm_of_caller {t t' : ERC20} {p q : Nat → Prop} (caller : Caller site) (h : Spends p q t t')
    (hp : ∀ x, p x → x = caller.sender) (hq : ∀ x, q x → x = caller.sender) : Calm site t t' :=
  h.calm (fun n hn => caller.sender_ne_clone n (hp _ hn).symm) fun n hn => caller.sender_ne_clone n (hq _ hn).symm

lemma nobody_pays (caller : Caller site) : ∀ x, nobody x → x = caller.sender := fun _ hx => hx.elim

lemma tokenCall_calm {caller : Caller site} {e : MarketCall} (hkept : m.Kept site)
    (h : m.step site (caller, e) = .ok m')
    (htoken : ∃ token recipient amount, e = .transfer token recipient amount ∨
      (∃ sender, e = .transferFrom token sender recipient amount) ∨ e = .approve token recipient amount ∨
      e = .mint token recipient amount) :
    ∃ token t, m' = m.setToken token t ∧ Calm site (m.erc20 token) t := by
  obtain ⟨token, recipient, amount, rfl | ⟨sender, rfl⟩ | rfl | rfl⟩ := htoken
  · simp only [Market.step, bind_eq_ok, called_eq_ok, Except.ok.injEq] at h
    obtain ⟨t, ht, rfl⟩ := h
    exact ⟨token, t, rfl, calm_of_caller caller (Spends.transfer ht) (fun _ hx => hx) (nobody_pays caller)⟩
  · simp only [Market.step, bind_eq_ok, called_eq_ok, Except.ok.injEq] at h
    obtain ⟨t, ht, rfl⟩ := h
    exact ⟨token, t, rfl, calm_transferFrom (hkept.unspent token) ht⟩
  · obtain rfl := Except.ok.inj h
    exact ⟨token, _, rfl, calm_of_caller caller (Spends.approve _ _ _ _) (nobody_pays caller) fun _ hx => hx⟩
  · obtain rfl := Except.ok.inj h
    exact ⟨token, _, rfl, calm_of_caller caller (Spends.mint _ _ _) (nobody_pays caller) (nobody_pays caller)⟩

lemma registered_ok {caller : Caller site} {threshold : Nat} {members : List Nat}
    (h : m.step site (caller, .registerCommitteeSet threshold members) = .ok m') :
    ∃ registry, m.registry.registerCommitteeSet site.env.keccak256 caller.timestamp threshold members = .ok registry ∧
      m' = { m with registry := registry } := by
  simp only [Market.step, bind_eq_ok, called_eq_ok, Except.ok.injEq] at h
  obtain ⟨registry, hregistry, rfl⟩ := h
  exact ⟨registry, hregistry, rfl⟩

theorem kept_step {e : Caller site × MarketCall} (hkept : m.Kept site) (h : m.step site e = .ok m') :
    m'.Kept site := by
  obtain ⟨caller, e⟩ := e
  have htoken : (∃ token t, m' = m.setToken token t ∧ Calm site (m.erc20 token) t) → m'.Kept site := by
    rintro ⟨token, t, rfl, ht⟩
    exact kept_setToken hkept ht
  cases e with
  | createAuction c =>
    obtain ⟨a, sale, w, hcreates⟩ := createAuction_ok h
    constructor
    · intro token j spender
      rw [(hcreates.spends token).allowance (site.clone j)]
      · exact hkept.unspent token j spender
      · rintro (hcaller | hfactory)
        · exact caller.sender_ne_clone j hcaller.symm
        · exact site.clone_ne_self j hfactory
    · rw [hcreates.next]
      intro d hd
      rcases List.mem_append.mp hd with hold | hnew
      · exact hkept.funded d hold
      · rw [List.mem_singleton.mp hnew]
        exact hcreates.funded
  | call j c =>
    obtain ⟨d, w, hserves⟩ := call_ok h
    constructor
    · intro token i spender
      rw [(hserves.spends token).allowance (site.clone i) fun hcaller => caller.sender_ne_clone i hcaller.symm]
      exact hkept.unspent token i spender
    · rw [hserves.next]
      intro d' hd'
      rcases List.mem_or_eq_of_mem_set hd' with hold | rfl
      · exact hkept.funded d' hold
      · exact (step_change hserves.stepped).funded (hkept.funded d (List.mem_of_getElem? hserves.found))
  | registerCommitteeSet threshold members =>
    obtain ⟨registry, -, rfl⟩ := registered_ok h
    exact ⟨hkept.unspent, hkept.funded⟩
  | transfer token recipient amount => exact htoken (tokenCall_calm hkept h ⟨token, recipient, amount, .inl rfl⟩)
  | transferFrom token sender recipient amount =>
    exact htoken (tokenCall_calm hkept h ⟨token, recipient, amount, .inr (.inl ⟨sender, rfl⟩)⟩)
  | approve token spender amount =>
    exact htoken (tokenCall_calm hkept h ⟨token, spender, amount, .inr (.inr (.inl rfl))⟩)
  | mint token recipient amount =>
    exact htoken (tokenCall_calm hkept h ⟨token, recipient, amount, .inr (.inr (.inr rfl))⟩)

lemma Market.Launched.kept (h : m.Launched site) : m.Kept site := by
  refine ⟨h.unspent, fun d hd => ?_⟩
  rw [h.deployed] at hd
  exact absurd hd List.not_mem_nil

/-- The n-th auction's own call in a transaction. -/
def ownCall (n : Nat) (e : Caller site × MarketCall) : Option (Msg (site.auction n) × Call) :=
  match e.2 with
  | .call j c => if j = n ∧ c.own = true then some (e.1.msg n, c) else none
  | _ => none

lemma ownCall_call {caller : Caller site} {j : Nat} {c : Call} : ownCall n (caller, .call j c) =
    if j = n ∧ c.own = true then some (caller.msg n, c) else none := rfl

lemma RunsAlone.other {own : List (Msg (site.auction n) × Call)} (h : RunsAlone site n m d own)
    (hkept : m.Kept site) (hd : m.deployed[n]? = some d) {e : Caller site × MarketCall} (hnot : ownCall n e = none)
    (hstep : m.step site e = .ok m') : m'.deployed[n]? = some d ∧ RunsAlone site n m' d own := by
  obtain ⟨caller, e⟩ := e
  have hlt : n < m.deployed.length := (List.getElem?_eq_some_iff.mp hd).1
  have htoken : (∃ token t, m' = m.setToken token t ∧ Calm site (m.erc20 token) t) →
      m'.deployed[n]? = some d ∧ RunsAlone site n m' d own := by
    rintro ⟨token, t, rfl, ht⟩
    exact ⟨hd, h.beside caller (beside_setToken ht n)⟩
  cases e with
  | createAuction c =>
    obtain ⟨a, sale, w, hcreates⟩ := createAuction_ok hstep
    have hdeployed : m'.deployed = m.deployed ++ [⟨w.auction, c.metadataHash⟩] := by rw [hcreates.next]
    refine ⟨?_, h.beside caller ⟨fun token => (hcreates.spends token).balance _ ?_, by rw [hcreates.next]; rfl⟩⟩
    · rw [hdeployed, List.getElem?_append_left hlt, hd]
    · rintro (hcaller | hfactory | hclone)
      · exact caller.sender_ne_clone n hcaller.symm
      · exact site.clone_ne_self n hfactory
      · have := site.clone_injective hclone
        omega
  | call j c =>
    obtain ⟨d', w, hserves⟩ := call_ok hstep
    have hj : j ≠ n := by
      intro hj
      rw [ownCall_call, if_pos ⟨hj, hserves.own⟩] at hnot
      cases hnot
    refine ⟨?_, h.beside caller ⟨fun token => (hserves.spends token).balance _ ?_, by rw [hserves.next]; rfl⟩⟩
    · rw [hserves.next]
      exact (List.getElem?_set_ne hj).trans hd
    · rintro (hclone | hcaller)
      · exact hj (site.clone_injective hclone).symm
      · exact caller.sender_ne_clone n hcaller.symm
  | registerCommitteeSet threshold members =>
    obtain ⟨registry, hregistry, rfl⟩ := registered_ok hstep
    refine ⟨hd, ?_⟩
    have hnext := h.next { m with registry := registry } d
      (c := (caller.msg n, .registerCommitteeSet threshold members)) rfl (advance_of_ok _ ?_)
    · rwa [show Call.own (.registerCommitteeSet _ _) = false from rfl, if_neg Bool.false_ne_true,
        List.append_nil] at hnext
    · simp only [step, bind_eq_ok, Except.ok.injEq]
      exact ⟨registry, hregistry, rfl⟩
  | transfer token recipient amount => exact htoken (tokenCall_calm hkept hstep ⟨token, recipient, amount, .inl rfl⟩)
  | transferFrom token sender recipient amount =>
    exact htoken (tokenCall_calm hkept hstep ⟨token, recipient, amount, .inr (.inl ⟨sender, rfl⟩)⟩)
  | approve token spender amount =>
    exact htoken (tokenCall_calm hkept hstep ⟨token, spender, amount, .inr (.inr (.inl rfl))⟩)
  | mint token recipient amount =>
    exact htoken (tokenCall_calm hkept hstep ⟨token, recipient, amount, .inr (.inr (.inr rfl))⟩)

lemma call_mirrors (htokens : d.auction.config.saleToken ≠ d.auction.config.quoteToken)
    (hd : m.deployed[n]? = some d) (caller : Caller site) {c : Call} (hown : c.own = true) :
    ∃ d', (advance (Market.step site) m (caller, .call n c)).deployed[n]? = some d' ∧
      d'.auction.config = d.auction.config ∧ d'.metadataHash = d.metadataHash ∧
      advance (step (site.auction n)) (m.world d.auction) (caller.msg n, c) =
        (advance (Market.step site) m (caller, .call n c)).world d'.auction := by
  cases hw : step (site.auction n) (m.world d.auction) (caller.msg n, c) with
  | error e =>
    have hrefused : m.step site (caller, .call n c) = .error (.called e) := by
      have hserved : called (step (site.auction n) (m.world d.auction) (caller.msg n, c)) = .error (.called e) := by
        rw [hw]
        rfl
      exact bind_eq_error.mpr (.inr ⟨(), require_eq_ok.mpr hown, bind_eq_error.mpr (.inr ⟨d, expect_eq_ok.mpr hd,
        bind_eq_error.mpr (.inl hserved)⟩)⟩)
    rw [advance_of_error _ hrefused, advance_of_error _ hw]
    exact ⟨d, hd, rfl, rfl, rfl⟩
  | ok w =>
    have hok : m.step site (caller, .call n c) = .ok (m.put n d w) := by
      simp only [Market.step, bind_eq_ok, require_eq_ok, expect_eq_ok, called_eq_ok, Except.ok.injEq]
      exact ⟨(), hown, d, hd, w, hw, rfl⟩
    have hserves : Serves site m caller n c (m.put n d w) d w := ⟨hown, hd, hw, rfl⟩
    rw [advance_of_ok _ hok, advance_of_ok _ hw]
    refine ⟨{ d with auction := w.auction }, ?_, hserves.config, rfl, (hserves.world htokens).symm⟩
    exact List.getElem?_set_self (List.getElem?_eq_some_iff.mp hd).1

/-- The factory's own calls of an auction it creates. -/
def founding (caller : Caller site) (c : Creation) (n : Nat) : List (Msg (site.auction n) × Call) :=
  (caller.factoryMsg n, .fund) ::
    if c.cfg.startTime ≤ caller.timestamp then [(caller.factoryMsg n, .openCommit)] else []

lemma founding_own (caller : Caller site) (c : Creation) (n : Nat) :
    (founding caller c n).filter (fun c => c.2.own) = founding caller c n := by
  unfold founding
  split_ifs <;> rfl

/-- The n-th auction is what a creation of the run made, run alone on the calls that were its own since. -/
structure Traced (site : Site) (calls : List (Caller site × MarketCall)) (n : Nat) (m : Market) (d : Deployed) (k : Nat)
    (caller : Caller site) (c : Creation) : Prop where
  created : calls[k]? = some (caller, .createAuction c)
  config : d.auction.config = c.cfg
  hash : d.metadataHash = c.metadataHash
  issuer : c.cfg.issuer = caller.sender
  label : c.metadataHash = metadataHash site.env.keccak256 c.name c.useCase c.details
  alone : RunsAlone site n m d (founding caller c n ++ (calls.drop (k + 1)).filterMap (ownCall n))

lemma Traced.later {calls : List (Caller site × MarketCall)} {k : Nat} {caller : Caller site} {c : Creation}
    (h : Traced site calls n m d k caller c) {e : Caller site × MarketCall} {d' : Deployed}
    (hcfg : d'.auction.config = d.auction.config) (hhash : d'.metadataHash = d.metadataHash)
    (halone : RunsAlone site n m' d' ((founding caller c n ++ (calls.drop (k + 1)).filterMap (ownCall n)) ++
      [e].filterMap (ownCall n))) : Traced site (calls ++ [e]) n m' d' k caller c := by
  have hlt : k < calls.length := (List.getElem?_eq_some_iff.mp h.created).1
  refine ⟨(List.getElem?_append_left hlt).trans h.created, hcfg.trans h.config, hhash.trans h.hash, h.issuer,
    h.label, ?_⟩
  rw [List.drop_append_of_le_length (Nat.succ_le_of_lt hlt), List.filterMap_append, ← List.append_assoc]
  exact halone

lemma deployed_length {e : Caller site × MarketCall} (hstep : m.step site e = .ok m')
    (hnot : ∀ c, e.2 ≠ .createAuction c) : m'.deployed.length = m.deployed.length := by
  obtain ⟨caller, e⟩ := e
  cases e with
  | createAuction c => exact absurd rfl (hnot c)
  | call j c =>
    obtain ⟨d, w, hserves⟩ := call_ok hstep
    rw [hserves.next]
    exact List.length_set
  | registerCommitteeSet threshold members =>
    obtain ⟨registry, -, rfl⟩ := registered_ok hstep
    rfl
  | approve token spender amount | mint token recipient amount =>
    obtain rfl := Except.ok.inj hstep
    rfl
  | transfer token recipient amount | transferFrom token sender recipient amount =>
    simp only [Market.step, bind_eq_ok, Except.ok.injEq] at hstep
    obtain ⟨t, -, rfl⟩ := hstep
    rfl

lemma traced_creation {calls : List (Caller site × MarketCall)} {e : Caller site × MarketCall}
    (hstep : m.step site e = .ok m') (hnew : m.deployed.length ≤ n) (hd : m'.deployed[n]? = some d) :
    ∃ caller c, Traced site (calls ++ [e]) n m' d calls.length caller c := by
  have hgrown : n < m'.deployed.length := (List.getElem?_eq_some_iff.mp hd).1
  obtain ⟨caller, e⟩ := e
  cases e with
  | createAuction c =>
    obtain ⟨a, sale, w, hcreates⟩ := createAuction_ok hstep
    have hdeployed : m'.deployed = m.deployed ++ [⟨w.auction, c.metadataHash⟩] := by rw [hcreates.next]
    rw [hdeployed, List.length_append, List.length_singleton] at hgrown
    obtain rfl : n = m.deployed.length := by omega
    rw [hdeployed, List.getElem?_concat_length, Option.some.injEq] at hd
    subst hd
    have htokens := initialize_tokens hcreates.initialized
    have hworld : m'.world w.auction = w := by
      rw [hcreates.next]
      exact world_setTokens htokens hcreates.config hcreates.frame.registry
    refine ⟨caller, c, ?_, hcreates.config, rfl, hcreates.issuer, hcreates.label, ?_⟩
    · exact List.getElem?_concat_length
    · have hrest : (calls ++ [(caller, MarketCall.createAuction c)]).drop (calls.length + 1) = [] :=
        List.drop_eq_nil_of_le (by rw [List.length_append, List.length_singleton])
      rw [hrest, List.filterMap_nil, List.append_nil]
      refine ⟨m.registry, a, sale, m.erc20 c.cfg.quoteToken, founding caller c _, ?_, founding_own caller c _, ?_⟩
      · rw [hcreates.config]
        exact hcreates.initialized
      · exact hcreates.opened.trans hworld.symm
  | _ =>
    rw [deployed_length hstep nofun] at hgrown
    omega

lemma exec_kept (hm : m.Launched site) (calls : List (Caller site × MarketCall)) :
    (exec (Market.step site) m calls).Kept site :=
  exec_invariant (Market.step site) (fun _ _ _ h hstep => kept_step h hstep) hm.kept calls

lemma traced_step {calls : List (Caller site × MarketCall)} {e : Caller site × MarketCall} {d₀ : Deployed} {k : Nat}
    {caller : Caller site} {c : Creation} (hkept : m.Kept site) (hd₀ : m.deployed[n]? = some d₀)
    (h : Traced site calls n m d₀ k caller c) (hd : (advance (Market.step site) m e).deployed[n]? = some d) :
    Traced site (calls ++ [e]) n (advance (Market.step site) m e) d k caller c := by
  by_cases hnot : ownCall n e = none
  · have hnone : [e].filterMap (ownCall n) = [] := by rw [List.filterMap_cons, hnot]; rfl
    have hother : (advance (Market.step site) m e).deployed[n]? = some d₀ ∧
        RunsAlone site n (advance (Market.step site) m e) d₀ _ :=
      advance_induct (Market.step site) (P := fun m' => m'.deployed[n]? = some d₀ ∧ RunsAlone site n m' d₀ _)
        ⟨hd₀, h.alone⟩ fun m' hstep => h.alone.other hkept hd₀ hnot hstep
    obtain rfl := Option.some.inj (hd.symm.trans hother.1)
    refine h.later rfl rfl ?_
    rw [hnone, List.append_nil]
    exact hother.2
  · obtain ⟨caller', e'⟩ := e
    cases e' with
    | call j c' =>
      have hif : j = n ∧ c'.own = true := by
        by_contra hif
        rw [ownCall_call, if_neg hif] at hnot
        exact hnot rfl
      obtain ⟨rfl, hown⟩ := hif
      obtain ⟨d', hd', hcfg, hhash, hnext⟩ := call_mirrors h.alone.tokens hd₀ caller' hown
      obtain rfl := Option.some.inj (hd.symm.trans hd')
      have halone := h.alone.next _ _ (c := (caller'.msg j, c')) hcfg hnext
      rw [if_pos hown] at halone
      refine h.later hcfg hhash ?_
      rw [List.filterMap_cons, ownCall_call, if_pos ⟨rfl, hown⟩]
      exact halone
    | _ => exact absurd rfl hnot

lemma exec_traced (hm : m.Launched site) (calls : List (Caller site × MarketCall))
    (hd : (exec (Market.step site) m calls).deployed[n]? = some d) :
    ∃ k caller c, Traced site calls n (exec (Market.step site) m calls) d k caller c := by
  induction calls using List.reverseRecOn generalizing d with
  | nil =>
    rw [exec_nil, hm.deployed] at hd
    cases hd
  | append_singleton calls e ih =>
    rw [exec_concat] at hd ⊢
    by_cases hlt : n < (exec (Market.step site) m calls).deployed.length
    · obtain ⟨d₀, hd₀⟩ : ∃ d₀, (exec (Market.step site) m calls).deployed[n]? = some d₀ :=
        ⟨_, List.getElem?_eq_getElem hlt⟩
      obtain ⟨k, caller, c, htraced⟩ := ih hd₀
      exact ⟨k, caller, c, traced_step (exec_kept hm calls) hd₀ htraced hd⟩
    · have hcreated : ∃ m', Market.step site (exec (Market.step site) m calls) e = .ok m' ∧
          m'.deployed[n]? = some d := by
        cases hstep : Market.step site (exec (Market.step site) m calls) e with
        | error e' =>
          rw [advance_of_error _ hstep, List.getElem?_eq_none (by omega)] at hd
          cases hd
        | ok m' => exact ⟨m', rfl, advance_of_ok _ hstep ▸ hd⟩
      obtain ⟨m', hstep, hd'⟩ := hcreated
      rw [advance_of_ok _ hstep]
      exact ⟨calls.length, traced_creation hstep (by omega) hd'⟩

/-- In whatever order any number of auctions are created, called and paid for, each of them is what its creator's
configuration comes to when it runs alone, on its own calls in their order. -/
theorem market_runs_alone (hm : m.Launched site) (calls : List (Caller site × MarketCall)) (n : Nat) (d : Deployed)
    (hd : (exec (Market.step site) m calls).deployed[n]? = some d) :
    ∃ k caller c, Traced site calls n (exec (Market.step site) m calls) d k caller c :=
  exec_traced hm calls hd

end Runs

/-! ### Two sellers, on the same two tokens -/

def sampleSite : Site where
  env := sampleEnv
  clone n := 100 + n
  self_ne_zero := by decide
  clone_ne_zero n := by omega
  clone_ne_self n := by
    show 100 + n ≠ 9
    omega
  clone_injective _ _ h := Nat.add_left_cancel h

def sampleCaller (sender timestamp : Nat) (h : sender ≠ 0 ∧ sender ≠ 9 ∧ sender < 100 := by decide) :
    Caller sampleSite where
  sender := sender
  timestamp := timestamp
  blockNumber := timestamp
  sender_ne_zero := h.1
  sender_ne_factory := h.2.1
  sender_ne_clone n := by
    show sender ≠ 100 + n
    omega

/-- Everyone but the contracts holds ten units and has approved the factory for them. -/
def marketToken : ERC20 :=
  ⟨fun a => if a = 9 ∨ 100 ≤ a then 0 else 10, fun a spender => if spender = 9 ∧ a < 100 then 10 else 0⟩

def sampleMarket : Market := ⟨.empty, [], sampleRegistry, fun _ => marketToken⟩

def sampleCreation (issuer saleToken quoteToken : Nat) : Creation where
  cfg := { sampleConfig with issuer := issuer, saleToken := saleToken, quoteToken := quoteToken }
  metadataHash := metadataHash sampleEnv.keccak256 [1] [2] []
  name := [1]
  useCase := [2]
  details := []

/-- The second auction sells the token the first one is paid in. -/
def sampleMarketCalls : List (Caller sampleSite × MarketCall) :=
  [(sampleCaller 20 12, .createAuction (sampleCreation 20 30 31)), (sampleCaller 40 13, .approve 31 100 5),
    (sampleCaller 40 13, .call 0 (.commitBid 7 7 5 [])), (sampleCaller 41 9, .createAuction (sampleCreation 41 31 30)),
    (sampleCaller 42 10, .call 1 .openCommit), (sampleCaller 42 10, .transferFrom 31 100 42 5)]

lemma sampleMarket_launched : sampleMarket.Launched sampleSite := by
  refine ⟨rfl, rfl, fun token n spender => if_neg ?_⟩
  rintro ⟨-, hlow⟩
  exact absurd hlow (Nat.not_lt.mpr (Nat.le_add_right 100 n))

lemma sampleMarket_states : (exec (Market.step sampleSite) sampleMarket sampleMarketCalls).deployed.map
    (fun d => (d.auction.state, d.auction.bids.length)) = [(.commitOpen, 1), (.commitOpen, 0)] := by
  decide +kernel

lemma sampleMarket_second :
    ∃ d, (exec (Market.step sampleSite) sampleMarket sampleMarketCalls).deployed[1]? = some d := by
  have hlt : 1 < (exec (Market.step sampleSite) sampleMarket sampleMarketCalls).deployed.length := by
    rw [← List.length_map (f := fun d => (d.auction.state, d.auction.bids.length)), sampleMarket_states]
    decide
  exact ⟨_, List.getElem?_eq_getElem hlt⟩

theorem market_runs_alone_sample : ∃ d k caller c, Traced sampleSite sampleMarketCalls 1
    (exec (Market.step sampleSite) sampleMarket sampleMarketCalls) d k caller c := by
  obtain ⟨d, hd⟩ := sampleMarket_second
  exact ⟨d, market_runs_alone sampleMarket_launched sampleMarketCalls 1 d hd⟩

end Peal.Auction
