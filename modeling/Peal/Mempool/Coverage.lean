import Peal.Mempool.Pricing

namespace Peal.Mempool
open Peal.Fallible Peal.Runs Peal.Balances

/-! # The pool always holds what its reserves say -/

/-- The pool lends nothing and holds at least its reserves. -/
structure Covered (d : Deployment) (w : World) : Prop where
  standing : Standing d w
  unlent : ∀ k spender, (w.token k).allowance d.pool spender = 0
  reserves : ∀ k, w.reserve k ≤ (w.token k).balanceOf d.pool

/-- A chain on which the two tokens and the pool were deployed, and that has run since without the pool calling anyone
of itself. -/
def Launched (d : Deployment) (w : World) : Prop :=
  ∃ (w₀ : World) (owner : Token → Address) (calls : List Call),
    (∀ k, w₀.token k = DemoToken.deployed (owner k) ∧ w₀.reserve k = 0) ∧ (∀ call ∈ calls, call.caller ≠ d.pool) ∧
      w = exec (step d) w₀ calls

section Tokens

variable {t t' : DemoToken} {caller sender recipient amount who : Nat}

lemma mint_balanceOf (hsupplied : t.Supplied) (h : t.mint caller recipient amount = .ok t') :
    t'.balanceOf = credited t.balanceOf recipient amount := by
  simp only [DemoToken.mint, bind_eq_ok, require_eq_ok, checked_eq_ok, pure_eq_ok] at h
  obtain ⟨-, -, -, ⟨hfits, rfl⟩, rfl⟩ := h
  have hle := hsupplied.bounded.le recipient
  have hbalance : t.balanceOf recipient + amount < 2 ^ 256 := by omega
  exact congrArg (Function.update t.balanceOf recipient) (Nat.mod_eq_of_lt hbalance)

lemma Pulled.allowance_zero (h : Pulled t t' caller sender recipient amount) {spender : Nat}
    (hzero : t.allowance who spender = 0) : t'.allowance who spender = 0 :=
  Nat.le_zero.mp (hzero ▸ h.allowances who spender)

lemma Pulled.holds (h : Pulled t t' caller sender recipient amount) (hsupplied : t.Supplied)
    (hzero : t.allowance who caller = 0) : t.balanceOf who ≤ t'.balanceOf who := by
  rw [h.balances hsupplied]
  by_cases hsender : who = sender
  · subst hsender
    have hamount : amount = 0 := by
      rcases h.allowed with hmax | hle
      · rw [hzero] at hmax
        exact absurd hmax (by decide)
      · omega
    rw [hamount]
    by_cases hrecipient : recipient = who
    · rw [hrecipient, moved_self (Nat.zero_le _)]
    · rw [moved_sender hrecipient, Nat.sub_zero]
  · exact le_moved hsender

end Tokens

section Step

variable {d : Deployment} {w w' : World}

lemma covered_of_tokens {k : Token} (hw : Standing d w')
    (hk : (∀ spender, (w'.token k).allowance d.pool spender = 0) ∧ w'.reserve k ≤ (w'.token k).balanceOf d.pool)
    (hother : (∀ spender, (w'.token k.other).allowance d.pool spender = 0) ∧
      w'.reserve k.other ≤ (w'.token k.other).balanceOf d.pool) : Covered d w' :=
  ⟨hw, fun j => (both_tokens (P := fun j => ∀ spender, (w'.token j).allowance d.pool spender = 0) k hk.1 hother.1 j),
    both_tokens k hk.2 hother.2⟩

lemma Filled.covered {o : SwapOrder} {out : Nat} (h : Filled d w w' o out) (hw : Covered d w) : Covered d w' := by
  have hcovers := h.covers hw.standing hw.reserves
  refine covered_of_tokens (k := o.pays) (h.standing hw.standing) ⟨fun spender => ?_, hcovers _⟩
    ⟨fun spender => ?_, hcovers _⟩
  · exact h.pulled.allowance_zero (hw.unlent _ _)
  · have hsent : (w.token o.pays.other).move d.pool o.recipient out = .ok (w'.token o.pays.other) := h.sent
    rw [(move_keeps hsent).2.2]
    exact hw.unlent _ _

lemma executeSlot_covered {s : Slot} (hw : Covered d w) (h : executeSlot d w s = .ok w') : Covered d w' := by
  unfold executeSlot at h
  by_cases hreal : s.isReal = true
  · simp only [hreal, if_true, bind_eq_ok, expect_eq_ok, pure_eq_ok] at h
    obtain ⟨o, -, ⟨out, w''⟩, hswap, rfl⟩ := h
    exact (filled_of_ok (t := ⟨d.mempool, o⟩) hswap).covered hw
  · rw [if_neg hreal] at h
    rw [← pure_eq_ok.mp h]
    exact hw

lemma reconcile_covers {t t' : DemoToken} {current target : Nat} (h : reconcile d t current target = .ok t')
    (hsupplied : t.Supplied) (hunlent : ∀ spender, t.allowance d.pool spender = 0)
    (hcovered : current ≤ t.balanceOf d.pool) :
    (∀ spender, t'.allowance d.pool spender = 0) ∧ target ≤ t'.balanceOf d.pool := by
  unfold reconcile at h
  split_ifs at h
  · have hpulled := transferFrom_pulled h
    refine ⟨fun spender => hpulled.allowance_zero (hunlent spender), ?_⟩
    have hadmin : d.pool ≠ d.admin := by
      intro hsame
      have hallowed := hpulled.allowed
      rw [← hsame, hunlent] at hallowed
      rcases hallowed with hmax | hle
      · exact absurd hmax (by decide)
      · omega
    rw [hpulled.balances hsupplied, moved_recipient hadmin]
    omega
  · have hmove : t.move d.pool d.admin (current - target) = .ok t' := h
    obtain ⟨henough, -, hallowance⟩ := move_keeps hmove
    refine ⟨fun spender => by rw [hallowance, hunlent], ?_⟩
    rw [move_balanceOf hsupplied hmove]
    by_cases hadmin : d.admin = d.pool
    · rw [hadmin, moved_self henough]
      omega
    · rw [moved_sender hadmin]
      omega
  · rw [← Except.ok.inj h]
    exact ⟨hunlent, by omega⟩

lemma Covered.setToken (h : Covered d w) {k : Token} {t : DemoToken} (hw : Standing d (w.setToken k t))
    (hunlent : ∀ spender, t.allowance d.pool spender = 0)
    (hholds : (w.token k).balanceOf d.pool ≤ t.balanceOf d.pool) : Covered d (w.setToken k t) := by
  refine ⟨hw, fun j => ?_, fun j => ?_⟩
  · rw [token_setToken]
    split_ifs
    · exact hunlent
    · exact h.unlent j
  · have hreserve : (w.setToken k t).reserve j = w.reserve j := by
      cases k <;> cases j <;> rfl
    rw [hreserve, token_setToken]
    split_ifs with hj
    · subst hj
      exact (h.reserves j).trans hholds
    · exact h.reserves j

/-- Whatever anyone but the pool does, the reserves stay covered. -/
theorem covered_step {call : Call} (hw : Covered d w) (hcaller : call.caller ≠ d.pool)
    (h : step d w call = .ok w') : Covered d w' := by
  have hstanding := standing_step hw.standing hcaller h
  cases call with
  | submitSealed author conditionId payload =>
    rw [← Except.ok.inj h]
    exact ⟨Except.ok.inj h ▸ hstanding, hw.unlent, hw.reserves⟩
  | commitSealed caller conditionId ctHash =>
    rw [← Except.ok.inj h]
    exact hw
  | executeBatch caller conditionId slots root =>
    simp only [step, executeBatch, bind_eq_ok, require_eq_ok] at h
    obtain ⟨-, -, -, -, -, -, hfold⟩ := h
    refine foldlM_invariant (executeSlot d) (fun _ _ _ _ hs hslot => executeSlot_covered hs hslot) ?_ hfold
    exact ⟨⟨hw.standing.supplied, hw.standing.unspent⟩, hw.unlent, hw.reserves⟩
  | swap caller payer baseToQuote amountIn minOut recipient =>
    obtain ⟨⟨out, w''⟩, hswap, rfl⟩ := map_eq_ok.mp h
    exact (filled_of_ok (t := ⟨caller, payer, baseToQuote, amountIn, minOut, recipient⟩) hswap).covered hw
  | initOperator caller operator =>
    simp only [step, initOperator, bind_eq_ok, require_eq_ok, pure_eq_ok] at h
    obtain ⟨-, -, rfl⟩ := h
    exact ⟨hstanding, hw.unlent, hw.reserves⟩
  | adminSetReserves caller baseTarget quoteTarget =>
    simp only [step, adminSetReserves, bind_eq_ok, pure_eq_ok] at h
    obtain ⟨-, -, base, hbase, quote, hquote, rfl⟩ := h
    have hb := reconcile_covers hbase (hw.standing.supplied .base) (hw.unlent .base) (hw.reserves .base)
    have hq := reconcile_covers hquote (hw.standing.supplied .quote) (hw.unlent .quote) (hw.reserves .quote)
    exact covered_of_tokens (k := .base) hstanding hb hq
  | sync caller =>
    rw [← Except.ok.inj h] at hstanding ⊢
    refine ⟨hstanding, hw.unlent, fun k => ?_⟩
    cases k <;> exact le_rfl
  | mint k caller recipient amount =>
    obtain ⟨t, hmint, rfl⟩ := map_eq_ok.mp h
    refine hw.setToken hstanding (fun spender => by rw [mint_allowance hmint, hw.unlent]) ?_
    rw [mint_balanceOf (hw.standing.supplied k) hmint]
    by_cases hrecipient : d.pool = recipient
    · simp [credited, hrecipient]
    · simp [credited, hrecipient]
  | approve k caller spender amount =>
    rw [← Except.ok.inj h] at hstanding ⊢
    refine hw.setToken hstanding (fun spender' => ?_) le_rfl
    have hne : d.pool ≠ caller := Ne.symm hcaller
    simp [DemoToken.approve, hne, hw.unlent k]
  | transfer k caller recipient amount =>
    obtain ⟨t, hmove, rfl⟩ := map_eq_ok.mp h
    refine hw.setToken hstanding (fun spender => by rw [(move_keeps hmove).2.2, hw.unlent]) ?_
    rw [move_balanceOf (hw.standing.supplied k) hmove]
    exact le_moved (Ne.symm hcaller)
  | transferFrom k caller sender recipient amount =>
    obtain ⟨t, hpull, rfl⟩ := map_eq_ok.mp h
    have hpulled := transferFrom_pulled hpull
    exact hw.setToken hstanding (fun spender => hpulled.allowance_zero (hw.unlent k spender))
      (hpulled.holds (hw.standing.supplied k) (hw.unlent k caller))

theorem Launched.covered (h : Launched d w) : Covered d w := by
  obtain ⟨w₀, owner, calls, hfresh, hcallers, rfl⟩ := h
  have hstart : Covered d w₀ := by
    have hstanding : Standing d (exec (step d) w₀ []) := standing_run (fun k => (hfresh k).1) (by simp)
    refine ⟨hstanding, fun k spender => ?_, fun k => ?_⟩
    · rw [(hfresh k).1]
      rfl
    · rw [(hfresh k).2]
      exact Nat.zero_le _
  exact exec_invariant_along (step d) (fun _ _ _ hs hcaller h => covered_step hs hcaller h) hstart
    (along_of_forall (step d) (fun call hc _ => hcallers call hc) w₀)

end Step

end Peal.Mempool
