import Peal.Library.Balances
import Peal.Library.ConstantProduct
import Peal.Mempool.Isolation
import Peal.Mempool.PublicBuilder

namespace Peal.Mempool
open Peal.Fallible Peal.Runs Peal.Balances Peal.ConstantProduct

/-! # What the pool gives for what it is paid

The reserves are a record of balances: a swap keeps the record covered and its product from falling, so a lone trader
cannot come out ahead, and whoever trades first in the same direction makes the next one pay more. -/

section Statement

/-- The balances of a token add up to at most its supply, which is a machine word. -/
structure DemoToken.Supplied (t : DemoToken) : Prop where
  bounded : Bounded t.balanceOf t.totalSupply
  fits : t.totalSupply < 2 ^ 256

/-- What the tokens and the pool see to from their deployment on: the pool lets nobody spend for it, itself included. -/
structure Standing (d : Deployment) (w : World) : Prop where
  supplied : ∀ k, (w.token k).Supplied
  unspent : ∀ k, (w.token k).allowance d.pool d.pool = 0

/-- Both reserves are positive and covered by what the pool holds. -/
def Funded (d : Deployment) (w : World) : Prop :=
  ∀ k, 0 < w.reserve k ∧ w.reserve k ≤ (w.token k).balanceOf d.pool

def World.product (w : World) : Nat := w.reserveBase * w.reserveQuote

/-- A swap as its caller asks for it. -/
structure Trade where
  caller : Address
  order : SwapOrder
  deriving DecidableEq, Repr

def Trade.call (t : Trade) : Call :=
  .swap t.caller t.order.trader t.order.baseToQuote t.order.amountIn t.order.minOut t.order.recipient

def Trade.run (d : Deployment) (w : World) (t : Trade) : Except Revert (Nat × World) :=
  swap d w t.caller t.order.trader t.order.baseToQuote t.order.amountIn t.order.minOut t.order.recipient

/-- The chain after a sequence of swaps; one that reverts changes nothing. -/
def traded (d : Deployment) (w : World) (trades : List Trade) : World := exec (step d) w (trades.map Trade.call)

end Statement

section Tokens

variable {d : Deployment} {t t' : DemoToken} {caller sender recipient amount : Nat}

lemma move_balanceOf (hsupplied : t.Supplied) (h : t.move sender recipient amount = .ok t') :
    t'.balanceOf = moved t.balanceOf sender recipient amount := by
  simp only [DemoToken.move, bind_eq_ok, require_eq_ok, pure_eq_ok] at h
  obtain ⟨-, henough, rfl⟩ := h
  have hroom := hsupplied.bounded.debited_add_le henough recipient
  have hfits : debited t.balanceOf sender amount recipient + amount < 2 ^ 256 := hroom.trans_lt hsupplied.fits
  exact congrArg (Function.update (debited t.balanceOf sender amount) recipient) (Nat.mod_eq_of_lt hfits)

lemma move_keeps (h : t.move sender recipient amount = .ok t') :
    amount ≤ t.balanceOf sender ∧ t'.totalSupply = t.totalSupply ∧ t'.allowance = t.allowance := by
  simp only [DemoToken.move, bind_eq_ok, require_eq_ok, pure_eq_ok] at h
  obtain ⟨-, henough, rfl⟩ := h
  exact ⟨henough, rfl, rfl⟩

lemma move_supplied (hsupplied : t.Supplied) (h : t.move sender recipient amount = .ok t') : t'.Supplied := by
  obtain ⟨henough, hsupply, -⟩ := move_keeps h
  constructor
  · rw [move_balanceOf hsupplied h, hsupply]
    exact hsupplied.bounded.moved henough recipient
  · rw [hsupply]
    exact hsupplied.fits

/-- What a transfer on behalf of another did: a transfer, after an allowance that never grows. -/
structure Pulled (t t' : DemoToken) (caller sender recipient amount : Nat) : Prop where
  allowed : t.allowance sender caller = 2 ^ 256 - 1 ∨ amount ≤ t.allowance sender caller
  enough : amount ≤ t.balanceOf sender
  balances : t.Supplied → t'.balanceOf = moved t.balanceOf sender recipient amount
  supplied : t.Supplied → t'.Supplied
  allowances : ∀ owner spender, t'.allowance owner spender ≤ t.allowance owner spender

lemma transferFrom_pulled (h : t.transferFrom caller sender recipient amount = .ok t') :
    Pulled t t' caller sender recipient amount := by
  have hallowed := (transferFrom_succeeds.mp ⟨t', h⟩).1
  unfold DemoToken.transferFrom at h
  dsimp only at h
  split_ifs at h with hinfinite
  · obtain ⟨-, -, hmove⟩ := bind_eq_ok.mp h
    obtain ⟨henough, -, hallowance⟩ := move_keeps hmove
    have hsame (hsupplied : t.Supplied) : (t.approve sender caller (t.allowance sender caller - amount)).Supplied :=
      ⟨hsupplied.bounded, hsupplied.fits⟩
    have hbalances (hs : t.Supplied) : t'.balanceOf = moved t.balanceOf sender recipient amount := by
      have hmoved := move_balanceOf (hsame hs) hmove
      exact hmoved
    refine ⟨hallowed, henough, hbalances, fun hs => move_supplied (hsame hs) hmove, fun owner spender => ?_⟩
    rw [hallowance]
    unfold DemoToken.approve
    by_cases howner : owner = sender
    · subst howner
      by_cases hspender : spender = caller <;> simp [hspender]
    · simp [howner]
  · obtain ⟨henough, -, hallowance⟩ := move_keeps h
    refine ⟨hallowed, henough, fun hs => move_balanceOf hs h, fun hs => move_supplied hs h, fun owner spender => ?_⟩
    rw [hallowance]

lemma mint_supplied (hsupplied : t.Supplied) (h : t.mint caller recipient amount = .ok t') : t'.Supplied := by
  simp only [DemoToken.mint, bind_eq_ok, require_eq_ok, checked_eq_ok, pure_eq_ok] at h
  obtain ⟨-, -, -, ⟨hfits, rfl⟩, rfl⟩ := h
  have hle := hsupplied.bounded.le recipient
  have hbalance : t.balanceOf recipient + amount < 2 ^ 256 := by omega
  refine ⟨?_, hfits⟩
  show Bounded (Function.update t.balanceOf recipient ((t.balanceOf recipient + amount) % 2 ^ 256)) _
  rw [Nat.mod_eq_of_lt hbalance]
  exact hsupplied.bounded.credited recipient amount

lemma mint_allowance (h : t.mint caller recipient amount = .ok t') : t'.allowance = t.allowance := by
  simp only [DemoToken.mint, bind_eq_ok, require_eq_ok, checked_eq_ok, pure_eq_ok] at h
  obtain ⟨-, -, -, -, rfl⟩ := h
  rfl

end Tokens

section Standing

variable {d : Deployment} {w w' : World}

lemma token_setToken (w : World) (k j : Token) (t : DemoToken) :
    (w.setToken k t).token j = if j = k then t else w.token j := by
  cases k <;> cases j <;> rfl

lemma Standing.setToken (h : Standing d w) {k : Token} {t : DemoToken} (hsupplied : t.Supplied)
    (hunspent : t.allowance d.pool d.pool = 0) : Standing d (w.setToken k t) := by
  constructor <;> intro j <;> rw [token_setToken] <;> split_ifs
  · exact hsupplied
  · exact h.supplied j
  · exact hunspent
  · exact h.unspent j

lemma standing_of_tokens {k : Token}
    (hk : (w'.token k).Supplied ∧ (w'.token k).allowance d.pool d.pool = 0)
    (hother : (w'.token k.other).Supplied ∧ (w'.token k.other).allowance d.pool d.pool = 0) : Standing d w' := by
  have hboth (j : Token) : j = k ∨ j = k.other := by
    cases j <;> cases k <;> simp [Token.other]
  constructor <;> intro j <;> rcases hboth j with rfl | rfl
  · exact hk.1
  · exact hother.1
  · exact hk.2
  · exact hother.2

lemma Pulled.unspent {t t' : DemoToken} {caller sender recipient amount : Nat}
    (h : Pulled t t' caller sender recipient amount) (hzero : t.allowance d.pool d.pool = 0) :
    t'.allowance d.pool d.pool = 0 :=
  Nat.le_zero.mp (hzero ▸ h.allowances d.pool d.pool)

/-- What a successful swap did to balances and reserves. -/
structure Filled (d : Deployment) (w w' : World) (o : SwapOrder) (out : Nat) : Prop where
  price : out = w.price o
  pulled : Pulled (w.token o.pays) (w'.token o.pays) d.pool o.trader d.pool o.amountIn
  amount : o.amountIn ≠ 0
  sent : (w.token o.pays.other).transfer d.pool o.recipient out = .ok (w'.token o.pays.other)
  reserveIn : w'.reserve o.pays = w.reserve o.pays + o.amountIn
  reserveOut : w'.reserve o.pays.other = w.reserve o.pays.other - out

lemma filled_of_ok {t : Trade} {out : Nat} (h : t.run d w = .ok (out, w')) : Filled d w w' t.order out := by
  obtain ⟨caller, trader, baseToQuote, amountIn, minOut, recipient⟩ := t
  unfold Trade.run swap at h
  cases baseToQuote
  all_goals
    simp only [bind_eq_ok, require_eq_ok, checked_eq_ok, checkedSub_eq_ok, pure_eq_ok, if_true, Bool.false_eq_true,
      if_false] at h
    obtain ⟨-, -, -, hamount, price, hprice, -, -, tin, hin, tout, hout, -, ⟨-, rfl⟩, -, ⟨-, rfl⟩, heq⟩ := h
    obtain ⟨rfl, rfl⟩ := Prod.mk.inj heq
    obtain ⟨-, -, hprice⟩ := (getAmountOut_eq_ok hamount).mp hprice
    exact ⟨hprice.symm, transferFrom_pulled hin, hamount, hout, rfl, rfl⟩

lemma Filled.standing {o : SwapOrder} {out : Nat} (h : Filled d w w' o out) (hw : Standing d w) : Standing d w' := by
  have hsent : (w.token o.pays.other).move d.pool o.recipient out = .ok (w'.token o.pays.other) := h.sent
  refine standing_of_tokens (k := o.pays) ⟨h.pulled.supplied (hw.supplied _), h.pulled.unspent (hw.unspent _)⟩
    ⟨move_supplied (hw.supplied _) hsent, ?_⟩
  rw [(move_keeps hsent).2.2]
  exact hw.unspent _

lemma Filled.trader_ne {o : SwapOrder} {out : Nat} (h : Filled d w w' o out) (hw : Standing d w) :
    o.trader ≠ d.pool := by
  intro htrader
  have hallowed := h.pulled.allowed
  rw [htrader, hw.unspent o.pays] at hallowed
  have hamount := h.amount
  rcases hallowed with hmax | hle
  · exact absurd hmax (by decide)
  · omega

lemma executeSlot_standing {s : Slot} (hw : Standing d w) (h : executeSlot d w s = .ok w') : Standing d w' := by
  unfold executeSlot at h
  by_cases hreal : s.isReal = true
  · simp only [hreal, if_true, bind_eq_ok, expect_eq_ok, pure_eq_ok] at h
    obtain ⟨o, -, ⟨out, w''⟩, hswap, rfl⟩ := h
    exact (filled_of_ok (t := ⟨d.mempool, o⟩) hswap).standing hw
  · rw [if_neg hreal] at h
    rw [← pure_eq_ok.mp h]
    exact hw

lemma reconcile_keeps {t t' : DemoToken} {current target : Nat} (h : reconcile d t current target = .ok t')
    (hsupplied : t.Supplied) (hzero : t.allowance d.pool d.pool = 0) :
    t'.Supplied ∧ t'.allowance d.pool d.pool = 0 := by
  unfold reconcile at h
  split_ifs at h
  · have hpulled := transferFrom_pulled h
    exact ⟨hpulled.supplied hsupplied, hpulled.unspent hzero⟩
  · have hmove : t.move d.pool d.admin (current - target) = .ok t' := h
    exact ⟨move_supplied hsupplied hmove, by rw [(move_keeps hmove).2.2, hzero]⟩
  · rw [← Except.ok.inj h]
    exact ⟨hsupplied, hzero⟩

/-- Whatever anyone does, the tokens and the pool stand; the pool's own code approves nobody. -/
theorem standing_step {call : Call} (hw : Standing d w) (hcaller : call.caller ≠ d.pool)
    (h : step d w call = .ok w') : Standing d w' := by
  cases call with
  | submitSealed author conditionId payload =>
    rw [← Except.ok.inj h]
    exact ⟨fun k => hw.supplied k, fun k => hw.unspent k⟩
  | commitSealed caller conditionId ctHash =>
    rw [← Except.ok.inj h]
    exact hw
  | executeBatch caller conditionId slots root =>
    simp only [step, executeBatch, bind_eq_ok, require_eq_ok] at h
    obtain ⟨-, -, -, -, -, -, hfold⟩ := h
    refine foldlM_invariant (executeSlot d) (fun _ _ _ _ hs hslot => executeSlot_standing hs hslot) ?_ hfold
    exact ⟨fun k => hw.supplied k, fun k => hw.unspent k⟩
  | swap caller payer baseToQuote amountIn minOut recipient =>
    obtain ⟨⟨out, w''⟩, hswap, rfl⟩ := map_eq_ok.mp h
    exact (filled_of_ok (t := ⟨caller, payer, baseToQuote, amountIn, minOut, recipient⟩) hswap).standing hw
  | initOperator caller operator =>
    simp only [step, initOperator, bind_eq_ok, require_eq_ok, pure_eq_ok] at h
    obtain ⟨-, -, rfl⟩ := h
    exact ⟨fun k => hw.supplied k, fun k => hw.unspent k⟩
  | adminSetReserves caller baseTarget quoteTarget =>
    simp only [step, adminSetReserves, bind_eq_ok, pure_eq_ok] at h
    obtain ⟨-, -, base, hbase, quote, hquote, rfl⟩ := h
    have hb := reconcile_keeps hbase (hw.supplied .base) (hw.unspent .base)
    have hq := reconcile_keeps hquote (hw.supplied .quote) (hw.unspent .quote)
    exact standing_of_tokens (k := .base) hb hq
  | sync caller =>
    rw [← Except.ok.inj h]
    exact ⟨fun k => hw.supplied k, fun k => hw.unspent k⟩
  | mint k caller recipient amount =>
    obtain ⟨t, hmint, rfl⟩ := map_eq_ok.mp h
    exact hw.setToken (mint_supplied (hw.supplied k) hmint) (by rw [mint_allowance hmint, hw.unspent k])
  | approve k caller spender amount =>
    rw [← Except.ok.inj h]
    refine hw.setToken ⟨(hw.supplied k).bounded, (hw.supplied k).fits⟩ ?_
    have hne : d.pool ≠ caller := Ne.symm hcaller
    simp [DemoToken.approve, hne, hw.unspent k]
  | transfer k caller recipient amount =>
    obtain ⟨t, hmove, rfl⟩ := map_eq_ok.mp h
    exact hw.setToken (move_supplied (hw.supplied k) hmove) (by rw [(move_keeps hmove).2.2, hw.unspent k])
  | transferFrom k caller sender recipient amount =>
    obtain ⟨t, hpull, rfl⟩ := map_eq_ok.mp h
    have hpulled := transferFrom_pulled hpull
    exact hw.setToken (hpulled.supplied (hw.supplied k)) (hpulled.unspent (hw.unspent k))

/-- A token as it is deployed: nothing minted, nothing approved. -/
def DemoToken.deployed (owner : Address) : DemoToken where
  owner := owner
  totalSupply := 0
  balanceOf := fun _ => 0
  allowance := fun _ _ => 0
  transfers := []

lemma supplied_deployed (owner : Address) : (DemoToken.deployed owner).Supplied :=
  ⟨fun s => by simp [DemoToken.deployed], by simp [DemoToken.deployed]⟩

/-- From the deployment of the tokens on, through all that anyone but the pool itself calls. -/
theorem standing_run {owner : Token → Address} (hfresh : ∀ k, w.token k = DemoToken.deployed (owner k))
    {calls : List Call} (hcallers : ∀ call ∈ calls, call.caller ≠ d.pool) : Standing d (exec (step d) w calls) := by
  have hw : Standing d w := by
    constructor <;> intro k <;> rw [hfresh k]
    · exact supplied_deployed (owner k)
    · rfl
  have halong : Along (step d) (fun _ call => call.caller ≠ d.pool) w calls :=
    along_of_forall (step d) (fun call hc _ => hcallers call hc) w
  exact exec_invariant_along (step d) (fun _ _ _ hs hcaller h => standing_step hs hcaller h) hw halong

end Standing

section Trading

variable {d : Deployment} {w w' : World} {o : SwapOrder} {out : Nat}

lemma price_eq : w.price o = amountOut FEE_NUM FEE_DEN (w.reserve o.pays) (w.reserve o.pays.other) o.amountIn := rfl

lemma product_eq (w : World) (k : Token) : w.product = w.reserve k * w.reserve k.other := by
  cases k
  · rfl
  · exact Nat.mul_comm _ _

lemma other_other (k : Token) : k.other.other = k := by
  cases k <;> rfl

lemma both_tokens {P : Token → Prop} (k : Token) (hk : P k) (hother : P k.other) (j : Token) : P j := by
  cases k <;> cases j <;> assumption

lemma Filled.out_lt (h : Filled d w w' o out) (hfunded : Funded d w) : out < w.reserve o.pays.other := by
  rw [h.price, price_eq]
  exact amountOut_lt (by decide) (hfunded o.pays).1 (hfunded o.pays.other).1

lemma Filled.product_le (h : Filled d w w' o out) : w.product ≤ w'.product := by
  rw [product_eq w o.pays, product_eq w' o.pays, h.reserveIn, h.reserveOut, h.price, price_eq]
  exact ConstantProduct.product_le (by decide) (by decide)

lemma Filled.paid (h : Filled d w w' o out) (hw : Standing d w) :
    (w'.token o.pays).balanceOf = moved (w.token o.pays).balanceOf o.trader d.pool o.amountIn :=
  h.pulled.balances (hw.supplied o.pays)

lemma Filled.bought (h : Filled d w w' o out) (hw : Standing d w) :
    (w'.token o.pays.other).balanceOf = moved (w.token o.pays.other).balanceOf d.pool o.recipient out :=
  move_balanceOf (hw.supplied o.pays.other) h.sent

lemma Filled.covers (h : Filled d w w' o out) (hw : Standing d w)
    (hcovered : ∀ k, w.reserve k ≤ (w.token k).balanceOf d.pool) (k : Token) :
    w'.reserve k ≤ (w'.token k).balanceOf d.pool := by
  have hin := hcovered o.pays
  have hout := hcovered o.pays.other
  have henough := (move_keeps h.sent).1
  revert k
  refine both_tokens o.pays ?_ ?_
  · rw [h.reserveIn, h.paid hw, moved_recipient (h.trader_ne hw).symm]
    omega
  · rw [h.reserveOut, h.bought hw]
    by_cases hrecipient : o.recipient = d.pool
    · rw [hrecipient, moved_self henough]
      omega
    · rw [moved_sender hrecipient]
      omega

/-- A swap leaves both reserves positive and covered. -/
theorem Filled.funded (h : Filled d w w' o out) (hw : Standing d w) (hfunded : Funded d w) : Funded d w' := by
  have hcovers := h.covers hw fun k => (hfunded k).2
  have hin := (hfunded o.pays).1
  have hlt := h.out_lt hfunded
  refine both_tokens o.pays ⟨?_, hcovers o.pays⟩ ⟨?_, hcovers o.pays.other⟩
  · rw [h.reserveIn]
    omega
  · rw [h.reserveOut]
    omega

lemma Filled.holdings_le (h : Filled d w w' o out) (hw : Standing d w) (hfunded : Funded d w) (k : Token) :
    (w'.token k).balanceOf o.trader + w'.reserve k ≤ (w.token k).balanceOf o.trader + w.reserve k := by
  have hne := h.trader_ne hw
  have henough := h.pulled.enough
  have hlt := h.out_lt hfunded
  revert k
  refine both_tokens o.pays ?_ ?_
  · rw [h.reserveIn, h.paid hw, moved_sender hne.symm]
    omega
  · rw [h.reserveOut, h.bought hw]
    by_cases hrecipient : o.trader = o.recipient
    · rw [← hrecipient, moved_recipient hne]
      omega
    · rw [moved_of_ne hne hrecipient]
      omega

/-- What each swap of a sequence keeps, the whole sequence keeps. -/
theorem traded_induct {P : World → Prop} {trades : List Trade}
    (hstep : ∀ w w' t out, t ∈ trades → Standing d w → Funded d w → Filled d w w' t.order out → P w → P w')
    (hw : Standing d w) (hfunded : Funded d w) (hP : P w) :
    Standing d (traded d w trades) ∧ Funded d (traded d w trades) ∧ P (traded d w trades) := by
  induction trades generalizing w with
  | nil => exact ⟨hw, hfunded, hP⟩
  | cons t trades ih =>
    have hnext : Standing d (advance (step d) w t.call) ∧ Funded d (advance (step d) w t.call) ∧
        P (advance (step d) w t.call) := by
      refine advance_induct (step d) (P := fun w => Standing d w ∧ Funded d w ∧ P w) ⟨hw, hfunded, hP⟩ fun w' h => ?_
      obtain ⟨⟨out, w''⟩, hswap, rfl⟩ := map_eq_ok.mp h
      have hfilled := filled_of_ok (t := t) hswap
      exact ⟨hfilled.standing hw, hfilled.funded hw hfunded,
        hstep w w'' t out List.mem_cons_self hw hfunded hfilled hP⟩
    refine ih (fun w w' s out hs => hstep w w' s out (List.mem_cons_of_mem t hs)) hnext.1 hnext.2.1 hnext.2.2

lemma traded_funded (hw : Standing d w) (hfunded : Funded d w) (trades : List Trade) :
    Standing d (traded d w trades) ∧ Funded d (traded d w trades) ∧ w.product ≤ (traded d w trades).product :=
  traded_induct (P := fun w' => w.product ≤ w'.product)
    (fun _ _ _ _ _ _ _ h hle => hle.trans h.product_le) hw hfunded le_rfl

lemma traded_holdings {trader : Address} {trades : List Trade} (hw : Standing d w) (hfunded : Funded d w)
    (hlone : ∀ t ∈ trades, t.order.trader = trader) (k : Token) :
    ((traded d w trades).token k).balanceOf trader + (traded d w trades).reserve k ≤
      (w.token k).balanceOf trader + w.reserve k := by
  refine (traded_induct (P := fun w' => (w'.token k).balanceOf trader + w'.reserve k ≤
    (w.token k).balanceOf trader + w.reserve k) (fun _ _ t _ ht hw hfunded h hle => ?_) hw hfunded le_rfl).2.2
  have hstep := h.holdings_le hw hfunded k
  rw [hlone t ht] at hstep
  exact hstep.trans hle

lemma traded_tilt {k : Token} {trades : List Trade} (hw : Standing d w) (hfunded : Funded d w)
    (hsame : ∀ t ∈ trades, t.order.pays = k) :
    w.reserve k ≤ (traded d w trades).reserve k ∧ (traded d w trades).reserve k.other ≤ w.reserve k.other := by
  refine (traded_induct (P := fun w' => w.reserve k ≤ w'.reserve k ∧ w'.reserve k.other ≤ w.reserve k.other)
    (fun w₁ w₂ t out ht _ _ h hle => ?_) hw hfunded ⟨le_rfl, le_rfl⟩).2.2
  have hin := h.reserveIn
  have hout := h.reserveOut
  rw [hsame t ht] at hin hout
  rw [hin, hout]
  exact ⟨hle.1.trans (Nat.le_add_right _ _), (Nat.sub_le _ _).trans hle.2⟩

/-- Who trades alone and ends with no less of one token ends with no more of the other. -/
theorem lone_trader_gains_nothing {trader : Address} {trades : List Trade} (hw : Standing d w) (hfunded : Funded d w)
    (hlone : ∀ t ∈ trades, t.order.trader = trader) {k : Token}
    (hkept : (w.token k).balanceOf trader ≤ ((traded d w trades).token k).balanceOf trader) :
    ((traded d w trades).token k.other).balanceOf trader ≤ (w.token k.other).balanceOf trader := by
  have hsame := traded_holdings hw hfunded hlone k
  have hother := traded_holdings hw hfunded hlone k.other
  have hproduct := (traded_funded hw hfunded trades).2.2
  rw [product_eq w k, product_eq _ k] at hproduct
  have hreserve : (traded d w trades).reserve k ≤ w.reserve k := by omega
  have hgrown := other_reserve_le (hfunded k).1 hproduct hreserve
  omega

/-- A front-run in the victim's direction never makes the victim's order buy more. -/
theorem front_run_never_helps {trades : List Trade} (hw : Standing d w) (hfunded : Funded d w)
    (hsame : ∀ t ∈ trades, t.order.pays = o.pays) : (traded d w trades).price o ≤ w.price o := by
  obtain ⟨hin, hout⟩ := traded_tilt hw hfunded hsame
  exact amountOut_antitone (by decide) (hfunded o.pays).1 hin hout

end Trading

section Builder

variable {d : Deployment} {w : World}

lemma poolSwap_ok {self : Address} {b b' : PublicBuilder} {o : SwapOrder} {out : Nat}
    (h : PublicBuilder.poolSwap d self b o.trader o.baseToQuote o.amountIn o.minOut o.recipient = .ok (out, b')) :
    Trade.run d b.world ⟨self, o⟩ = .ok (out, b'.world) := by
  simp only [PublicBuilder.poolSwap, bind_eq_ok, mapError_eq_ok, pure_eq_ok, Prod.exists, Prod.mk.injEq] at h
  obtain ⟨out', w', hswap, rfl, rfl⟩ := h
  exact hswap

lemma take_ok {b b' : PublicBuilder} {id : Nat} {o : SwapOrder} (h : PublicBuilder.take b id = .ok (o, b')) :
    o = b.pending id ∧ b'.world = b.world := by
  simp only [PublicBuilder.take, bind_eq_ok, require_eq_ok, pure_eq_ok, Prod.mk.injEq] at h
  obtain ⟨-, -, -, -, rfl, rfl⟩ := h
  exact ⟨rfl, rfl⟩

lemma sandwich_ok {self searcher : Address} {b b' : PublicBuilder} {id frontAmountIn victimOut profit : Nat}
    (h : PublicBuilder.sandwich d self b searcher id frontAmountIn = .ok ((victimOut, profit), b')) :
    ∃ front back : Trade, front.order.pays = (b.pending id).pays ∧ ∃ w₁ w₂ frontOut backOut,
      front.run d b.world = .ok (frontOut, w₁) ∧ Trade.run d w₁ ⟨self, b.pending id⟩ = .ok (victimOut, w₂) ∧
        back.run d w₂ = .ok (backOut, b'.world) := by
  simp only [PublicBuilder.sandwich, bind_eq_ok, pure_eq_ok, Prod.exists, Prod.mk.injEq] at h
  obtain ⟨o, b₀, htake, frontOut, b₁, hfront, victimOut', b₂, hvictim, backOut, b₃, hback, ⟨rfl, -⟩, rfl⟩ := h
  obtain ⟨rfl, hworld⟩ := take_ok htake
  let front : SwapOrder := ⟨searcher, (b.pending id).baseToQuote, frontAmountIn, 0, searcher⟩
  let back : SwapOrder := ⟨searcher, !(b.pending id).baseToQuote, frontOut, 0, searcher⟩
  have hfront' := poolSwap_ok (o := front) hfront
  rw [hworld] at hfront'
  exact ⟨⟨self, front⟩, ⟨self, back⟩, rfl, b₁.world, b₂.world, frontOut, backOut, hfront', poolSwap_ok hvictim,
    poolSwap_ok (o := back) hback⟩

lemma execute_ok {self : Address} {b b' : PublicBuilder} {id out : Nat}
    (h : PublicBuilder.execute d self b id = .ok (out, b')) :
    Trade.run d b.world ⟨self, b.pending id⟩ = .ok (out, b'.world) := by
  simp only [PublicBuilder.execute, bind_eq_ok, Prod.exists] at h
  obtain ⟨o, b₀, htake, hswap⟩ := h
  obtain ⟨rfl, hworld⟩ := take_ok htake
  have hrun := poolSwap_ok hswap
  rwa [hworld] at hrun

lemma traded_singleton {t : Trade} {out : Nat} {w' : World} (h : t.run d w = .ok (out, w')) : traded d w [t] = w' :=
  advance_of_ok (step d) (map_eq_ok.mpr ⟨(out, w'), h, rfl⟩)

/-- A sandwiched order never fills better than it would have on its own. -/
theorem sandwich_never_helps {self searcher : Address} {b b' b'' : PublicBuilder}
    {id frontAmountIn victimOut profit honest : Nat} (hw : Standing d b.world) (hfunded : Funded d b.world)
    (h : PublicBuilder.sandwich d self b searcher id frontAmountIn = .ok ((victimOut, profit), b'))
    (hhonest : PublicBuilder.execute d self b id = .ok (honest, b'')) : victimOut ≤ honest := by
  obtain ⟨front, back, hpays, w₁, w₂, frontOut, backOut, hfront, hvictim, -⟩ := sandwich_ok h
  have hside : ∀ t ∈ [front], t.order.pays = (b.pending id).pays := by simpa using hpays
  have hworse := front_run_never_helps hw hfunded hside
  rw [traded_singleton hfront] at hworse
  rw [(filled_of_ok hvictim).price, (filled_of_ok (execute_ok hhonest)).price]
  exact hworse

end Builder

section Result

variable {d : Deployment} {w : World}

/-- From any state of the pool with covered reserves, and over any sequence of swaps: the reserves stay positive and
covered, their product never falls and no swap drains one; a trader on its own gains nothing; and going first in the
same direction, in whatever way, never lets the next order buy more. -/
theorem pool_prices_fairly (hw : Standing d w) (hfunded : Funded d w) (trades : List Trade) :
    (Funded d (traded d w trades) ∧ w.product ≤ (traded d w trades).product) ∧
      (∀ (t : Trade) out after, t.run d (traded d w trades) = .ok (out, after) →
        out < (traded d w trades).reserve t.order.pays.other ∧ (traded d w trades).product ≤ after.product) ∧
      (∀ trader, (∀ t ∈ trades, t.order.trader = trader) →
        ∀ k, (w.token k).balanceOf trader ≤ ((traded d w trades).token k).balanceOf trader →
          ((traded d w trades).token k.other).balanceOf trader ≤ (w.token k.other).balanceOf trader) ∧
      (∀ (victim : Trade) out out' after after', (∀ t ∈ trades, t.order.pays = victim.order.pays) →
        victim.run d w = .ok (out, after) → victim.run d (traded d w trades) = .ok (out', after') → out' ≤ out) ∧
      ∀ (b b' b'' : PublicBuilder) self searcher id frontAmountIn victimOut profit honest,
        b.world = traded d w trades →
          PublicBuilder.sandwich d self b searcher id frontAmountIn = .ok ((victimOut, profit), b') →
            PublicBuilder.execute d self b id = .ok (honest, b'') → victimOut ≤ honest := by
  obtain ⟨hw', hfunded', hproduct⟩ := traded_funded hw hfunded trades
  refine ⟨⟨hfunded', hproduct⟩, ?_, ?_, ?_, ?_⟩
  · intro t out after h
    have hfilled := filled_of_ok h
    exact ⟨hfilled.out_lt hfunded', hfilled.product_le⟩
  · intro trader hlone k hkept
    exact lone_trader_gains_nothing hw hfunded hlone hkept
  · intro victim out out' after after' hsame hbefore hafter
    rw [(filled_of_ok hbefore).price, (filled_of_ok hafter).price]
    exact front_run_never_helps hw hfunded hsame
  · intro b b' b'' self searcher id frontAmountIn victimOut profit honest hb hsandwich hhonest
    exact sandwich_never_helps (hb ▸ hw') (hb ▸ hfunded') hsandwich hhonest

lemma sample_supplied {balance : Nat} (h : balance < 10 ^ 9) : (sampleToken balance).Supplied := by
  have hbalances : (sampleToken balance).balanceOf = credited (credited (fun _ => 0) 10 10000) 5 balance := by
    funext who
    by_cases hfive : who = 5
    · subst hfive
      simp [sampleToken, credited]
    · simp [sampleToken, credited, Function.update_apply, hfive]
  have hempty : Bounded (fun _ : Nat => 0) 0 := fun s => by simp
  constructor
  · rw [hbalances]
    have hbounded := (hempty.credited 10 10000).credited 5 balance
    rwa [Nat.zero_add] at hbounded
  · show 10000 + balance < 2 ^ 256
    omega

lemma sample_standing : Standing sampleDeployment sampleWorld := by
  constructor <;> intro k <;> cases k
  · exact sample_supplied (by decide)
  · exact sample_supplied (by decide)
  · rfl
  · rfl

lemma sample_funded : Funded sampleDeployment sampleWorld := by
  intro k
  cases k <;> decide

/-- Account 5 buys and sells back. -/
def sampleTrades : List Trade :=
  [⟨11, ⟨5, true, 100, 0, 5⟩⟩, ⟨11, ⟨5, false, 98, 0, 5⟩⟩]

theorem pool_prices_fairly_sample :
    Funded sampleDeployment (traded sampleDeployment sampleWorld sampleTrades) ∧
      sampleWorld.product ≤ (traded sampleDeployment sampleWorld sampleTrades).product :=
  (pool_prices_fairly sample_standing sample_funded sampleTrades).1

/-- The way back returns less than went in. -/
example : (traded sampleDeployment sampleWorld sampleTrades).swaps.map Swapped.amountOut = [98, 98] := by
  decide +kernel

end Result

end Peal.Mempool
