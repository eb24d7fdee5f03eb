import Peal.Mempool.Contracts
import Peal.Library.Runs

namespace Peal.Mempool
open Peal.Fallible Peal.Runs

/-! # Whose tokens a settled batch spends

The trader of an order is a field of the payload that anyone seals; neither contract asks the trader. -/

variable (d : Deployment)

/-- The payloads sealed under a condition, in the order of the batch. -/
def World.revealed (w : World) (conditionId : Nat) : List Bytes :=
  (w.sealedOrders.filter fun o => o.conditionId = conditionId).map SealedOrder.payload

def realPayloads (slots : List Slot) : List Bytes := (slots.filter Slot.isReal).map Slot.payload

/-- The coordinator settles exactly the revealed batch, and the mempool contract calls only as it is written. -/
def Honest (w : World) : Call → Prop
  | .executeBatch caller conditionId slots _ => caller = d.coordinator → realPayloads slots = w.revealed conditionId
  | call => call.caller ≠ d.mempool

/-- The calls that reach the pool's swap. -/
def Call.Swaps : Call → Prop
  | .executeBatch _ _ _ _ => True
  | .swap _ _ _ _ _ _ => True
  | _ => False

def SwapOrder.pays (o : SwapOrder) : Token := if o.baseToQuote then .base else .quote

def Token.other : Token → Token
  | .base => .quote
  | .quote => .base

/-- What an order takes from its trader in a token. -/
def spending (k : Token) (o : SwapOrder) : Option Transfer :=
  if o.pays = k ∧ o.trader ≠ d.pool then some ⟨o.trader, d.pool, o.amountIn⟩ else none

/-- The transfers of a token out of accounts other than the pool. -/
def outgoing (t : DemoToken) : List Transfer := t.transfers.filter fun m => m.sender ≠ d.pool

def spendings (k : Token) (payloads : List Bytes) : List Transfer :=
  payloads.filterMap fun p => (decodeOrder p).bind (spending d k)

variable {d}

lemma move_transfers {t t' : DemoToken} {sender recipient amount : Nat}
    (h : t.move sender recipient amount = .ok t') : t'.transfers = t.transfers ++ [⟨sender, recipient, amount⟩] := by
  simp only [DemoToken.move, bind_eq_ok, require_eq_ok, pure_eq_ok] at h
  obtain ⟨-, -, rfl⟩ := h
  rfl

lemma transferFrom_transfers {t t' : DemoToken} {caller sender recipient amount : Nat}
    (h : t.transferFrom caller sender recipient amount = .ok t') :
    t'.transfers = t.transfers ++ [⟨sender, recipient, amount⟩] := by
  unfold DemoToken.transferFrom at h
  dsimp only at h
  split_ifs at h
  · obtain ⟨-, -, hmove⟩ := bind_eq_ok.mp h
    have hmoved := move_transfers hmove
    exact hmoved
  · exact move_transfers h

lemma outgoing_append {t t' : DemoToken} {m : Transfer} (h : t'.transfers = t.transfers ++ [m]) :
    outgoing d t' = outgoing d t ++ if m.sender ≠ d.pool then [m] else [] := by
  unfold outgoing
  rw [h, List.filter_append]
  by_cases hm : m.sender = d.pool <;> simp [hm]

/-- What a successful swap did: one transfer into the pool, one out of it. -/
structure Swap (d : Deployment) (w w' : World) (caller : Address) (o : SwapOrder) : Prop where
  operator : caller = w.operator
  paid : ∃ t, (w.token o.pays).transferFrom d.pool o.trader d.pool o.amountIn = .ok t ∧ w'.token o.pays = t
  bought : ∃ out t, (w.token o.pays.other).transfer d.pool o.recipient out = .ok t ∧ o.minOut ≤ out ∧
    w'.token o.pays.other = t
  unchanged : w'.operator = w.operator ∧ w'.sealedOrders = w.sealedOrders

lemma swap_of_ok {w w' : World} {caller amountOut : Nat} {o : SwapOrder}
    (h : swap d w caller o.trader o.baseToQuote o.amountIn o.minOut o.recipient = .ok (amountOut, w')) :
    Swap d w w' caller o := by
  obtain ⟨trader, baseToQuote, amountIn, minOut, recipient⟩ := o
  unfold swap at h
  cases baseToQuote
  all_goals
    simp only [bind_eq_ok, require_eq_ok, checked_eq_ok, checkedSub_eq_ok, pure_eq_ok, if_true, Bool.false_eq_true,
      if_false] at h
    obtain ⟨-, hcaller, -, -, out, -, -, hmin, tin, hin, tout, hout, -, -, -, -, -, rfl⟩ := h
    exact ⟨hcaller, ⟨tin, hin, rfl⟩, ⟨_, tout, hout, hmin, rfl⟩, rfl, rfl⟩

lemma swap_outgoing {w w' : World} {caller : Nat} {o : SwapOrder} (h : Swap d w w' caller o) (k : Token) :
    outgoing d (w'.token k) = outgoing d (w.token k) ++ (spending d k o).toList := by
  obtain ⟨tin, hin, hin'⟩ := h.paid
  obtain ⟨out, tout, hout, -, hout'⟩ := h.bought
  by_cases hk : o.pays = k
  · rw [← hk, hin', outgoing_append (transferFrom_transfers hin)]
    by_cases htrader : o.trader = d.pool <;> simp [spending, htrader]
  · have hother : o.pays.other = k := by
      revert hk
      generalize o.pays = j
      cases j <;> cases k <;> simp [Token.other]
    rw [← hother, hout', outgoing_append (move_transfers hout)]
    simp [spending, hother, hk]

lemma executeSlot_effect {w w' : World} {s : Slot} (h : executeSlot d w s = .ok w') :
    (w'.operator = w.operator ∧ w'.sealedOrders = w.sealedOrders) ∧
      ∀ k, outgoing d (w'.token k) = outgoing d (w.token k) ++ spendings d k (realPayloads [s]) := by
  unfold executeSlot at h
  by_cases hreal : s.isReal = true
  · simp only [hreal, if_true, bind_eq_ok, expect_eq_ok, pure_eq_ok] at h
    obtain ⟨o, ho, ⟨out, w''⟩, hswap, rfl⟩ := h
    have heffect := swap_of_ok hswap
    refine ⟨heffect.unchanged, fun k => ?_⟩
    rw [swap_outgoing heffect k]
    cases hs : spending d k o <;> simp [spendings, realPayloads, hreal, ho, hs]
  · simp only [hreal, Bool.false_eq_true, if_false, pure_eq_ok] at h
    rw [← h]
    refine ⟨⟨rfl, rfl⟩, fun k => ?_⟩
    simp [spendings, realPayloads, hreal]

lemma executeSlots_effect {w w' : World} {slots : List Slot} (h : slots.foldlM (executeSlot d) w = .ok w') :
    (w'.operator = w.operator ∧ w'.sealedOrders = w.sealedOrders) ∧
      ∀ k, outgoing d (w'.token k) = outgoing d (w.token k) ++ spendings d k (realPayloads slots) := by
  induction slots generalizing w with
  | nil =>
    obtain rfl : w = w' := pure_eq_ok.mp h
    exact ⟨⟨rfl, rfl⟩, fun k => by simp [spendings, realPayloads]⟩
  | cons s slots ih =>
    obtain ⟨w₁, hs, hrest⟩ := (foldlM_cons_eq_ok _).mp h
    obtain ⟨hkeep, hout⟩ := executeSlot_effect hs
    obtain ⟨hkeep', hout'⟩ := ih hrest
    refine ⟨⟨hkeep'.1.trans hkeep.1, hkeep'.2.trans hkeep.2⟩, fun k => ?_⟩
    have hsplit : realPayloads (s :: slots) = realPayloads [s] ++ realPayloads slots := by
      unfold realPayloads
      cases hreal : s.isReal <;> simp [hreal]
    rw [hout' k, hout k, hsplit, List.append_assoc]
    simp [spendings]

lemma executeBatch_effect {w w' : World} {caller conditionId : Nat} {slots : List Slot} {root : Bytes}
    (h : executeBatch d w caller conditionId slots root = .ok w') :
    caller = d.coordinator ∧ merkleRoot slots = root ∧ w'.operator = w.operator ∧
      ∀ k, outgoing d (w'.token k) = outgoing d (w.token k) ++ spendings d k (realPayloads slots) := by
  simp only [executeBatch, bind_eq_ok, require_eq_ok] at h
  obtain ⟨-, hcaller, -, -, -, hroot, hfold⟩ := h
  obtain ⟨hkeep, hout⟩ := executeSlots_effect hfold
  refine ⟨hcaller, hroot, hkeep.1, fun k => ?_⟩
  have hsame : World.token { w with settledRoot := Function.update w.settledRoot conditionId root } k = w.token k := by
    cases k <;> rfl
  rw [hout k, hsame]

lemma setToken_operator (w : World) (k : Token) (t : DemoToken) : (w.setToken k t).operator = w.operator := by
  cases k <;> rfl

lemma step_operator {w w' : World} {call : Call} (hop : w.operator ≠ 0) (h : step d w call = .ok w') :
    w'.operator = w.operator := by
  cases call with
  | submitSealed author conditionId payload => rw [← Except.ok.inj h]
  | commitSealed caller conditionId ctHash => rw [← Except.ok.inj h]
  | executeBatch caller conditionId slots root => exact (executeBatch_effect h).2.2.1
  | swap caller payer baseToQuote amountIn minOut recipient =>
    obtain ⟨⟨out, w''⟩, hswap, rfl⟩ := map_eq_ok.mp h
    exact (swap_of_ok (o := ⟨payer, baseToQuote, amountIn, minOut, recipient⟩) hswap).unchanged.1
  | initOperator caller operator =>
    simp only [step, initOperator, bind_eq_ok, require_eq_ok] at h
    obtain ⟨-, hzero, -⟩ := h
    exact absurd hzero hop
  | adminSetReserves caller baseTarget quoteTarget =>
    simp only [step, adminSetReserves, bind_eq_ok, pure_eq_ok] at h
    obtain ⟨-, -, -, -, -, -, rfl⟩ := h
    rfl
  | sync caller => rw [← Except.ok.inj h]; rfl
  | approve k caller spender amount => rw [← Except.ok.inj h, setToken_operator]
  | mint k caller recipient amount =>
    obtain ⟨t, -, rfl⟩ := map_eq_ok.mp h
    exact setToken_operator w k t
  | transfer k caller recipient amount =>
    obtain ⟨t, -, rfl⟩ := map_eq_ok.mp h
    exact setToken_operator w k t
  | transferFrom k caller sender recipient amount =>
    obtain ⟨t, -, rfl⟩ := map_eq_ok.mp h
    exact setToken_operator w k t

def sampleDeployment : Deployment where
  pool := 10
  mempool := 11
  coordinator := 12
  admin := 13

/-- Account 5 holds the base token and has approved the pool. -/
def sampleToken (balance : Nat) : DemoToken where
  owner := 13
  totalSupply := 10000 + balance
  balanceOf := fun who => if who = 10 then 10000 else if who = 5 then balance else 0
  allowance := fun owner spender => if owner = 5 ∧ spender = 10 then 2 ^ 256 - 1 else 0
  transfers := []

def sampleWorld : World where
  base := sampleToken 1000
  quote := sampleToken 0
  reserveBase := 10000
  reserveQuote := 10000
  operator := 11
  swaps := []
  settledRoot := fun _ => zero32
  sealedOrders := []

/-- Account 6 seals an order that spends account 5 and pays account 6. -/
def samplePayload : Bytes :=
  encodeOrder { trader := 5, baseToQuote := true, amountIn := 100, minOut := 0, recipient := 6 }

def sampleSlots : List Slot := [{ position := 0, isReal := true, payload := samplePayload }]

def sampleCalls : List Call := [.submitSealed 6 1 samplePayload]

def sampleSettle : Call := .executeBatch 12 1 sampleSlots (merkleRoot sampleSlots)

lemma sample_honest : Along (step sampleDeployment) (Honest sampleDeployment) sampleWorld (sampleCalls ++ [sampleSettle]) :=
  ⟨show (6 : Nat) ≠ 11 by decide, fun _ => rfl, trivial⟩

lemma sample_settles : ∃ w', step sampleDeployment (exec (step sampleDeployment) sampleWorld sampleCalls) sampleSettle =
    .ok w' := by
  have hok : (step sampleDeployment (exec (step sampleDeployment) sampleWorld sampleCalls) sampleSettle).isOk = true := by
    decide +kernel
  cases h : step sampleDeployment (exec (step sampleDeployment) sampleWorld sampleCalls) sampleSettle with
  | ok w' => exact ⟨w', rfl⟩
  | error e =>
    rw [h] at hok
    exact absurd hok Bool.false_ne_true

end Peal.Mempool
