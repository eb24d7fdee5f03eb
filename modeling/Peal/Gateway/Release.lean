import Peal.Gateway.Contract
import Peal.Library.Rows
import Peal.Library.SortedPairTree

namespace Peal.Gateway
open Peal.Fallible Peal.Runs Peal.Rows Peal.Auction Peal.SortedPairTree

/-! # Whose signatures released what, and what the gateway holds -/

namespace World

variable (ch : Chain) (w : World)

def depositedOf (token : Nat) : Nat := sumWhere (fun r => r.token == token) Deposit.amount w.gateway.deposited

def releasedOf (token : Nat) : Nat := sumWhere (fun r => r.token == token) Withdrawn.amount w.gateway.withdrawn

/-- What was released to the gateway's own address, which stays where it was. -/
def returnedOf (token : Nat) : Nat :=
  sumWhere (fun r => r.token == token && r.recipient == ch.self) Withdrawn.amount w.gateway.withdrawn

end World

/-- The signer set is the mapping of the current epoch, and its threshold is one the set can reach. -/
structure Committee (g : PealLinksGateway) : Prop where
  members : ∀ a, g.isSigner g.epoch a = true ↔ a ∈ g.signers
  distinct : g.signers.Nodup
  positive : 1 ≤ g.threshold
  reachable : g.threshold ≤ g.signers.length

structure ReleaseSafe (ch : Chain) (w : World) : Prop where
  once : (w.gateway.withdrawn.map Withdrawn.withdrawalId).Nodup
  committee : Committee w.gateway
  accounted : ∀ token, (w.erc20 token).balanceOf ch.self + w.releasedOf token =
    w.depositedOf token + w.direct token + w.returnedOf ch token

/-- Enough members of the epoch signed exactly this withdrawal, and it names this gateway, chain and epoch. -/
structure Attested (ch : Chain) (w : World) (wd : Withdrawal) : Prop where
  chain : wd.chainId = ch.chainid
  gateway : wd.gateway = ch.self
  epoch : wd.epoch = w.gateway.epoch
  quorum : ∃ attesters : List Nat, attesters.Nodup ∧ w.gateway.threshold ≤ attesters.length ∧
    ∀ a ∈ attesters, a ∈ w.gateway.signers ∧
      ∃ digest, (a, digest) ∈ w.signed ∧
        ∀ wd', PealLinksGateway.withdrawalDigest ch wd' = digest ↔ wd' = wd

/-- A step that releases something releases what was attested, under its id. -/
def ReleasesAttested (ch : Chain) (w : World) (e : Nat × Call) : Prop :=
  ∀ w', w.step ch e = .ok w' → ∀ r ∈ w'.gateway.withdrawn, r ∉ w.gateway.withdrawn →
    ∃ wd, Attested ch w wd ∧ r = ⟨wd.withdrawalId, wd.token, wd.recipient, wd.amount, wd.epoch⟩

def Call.withdrawal? : Call → Option (Withdrawal × List (List Nat))
  | .withdraw wd signatures => some (wd, signatures)
  | _ => none

/-- A signature recovers only to a key that signed the digest. -/
def Unforged (ch : Chain) (w : World) (e : Nat × Call) : Prop :=
  ∀ p ∈ e.2.withdrawal?, ∀ signature ∈ p.2,
    ∀ a ∈ ch.recover (PealLinksGateway.withdrawalDigest ch p.1) signature,
      (a, PealLinksGateway.withdrawalDigest ch p.1) ∈ w.signed

instance (ch : Chain) (w : World) (e : Nat × Call) : Decidable (Unforged ch w e) :=
  inferInstanceAs (Decidable (∀ p ∈ e.2.withdrawal?, ∀ signature ∈ p.2,
    ∀ a ∈ ch.recover (PealLinksGateway.withdrawalDigest ch p.1) signature,
      (a, PealLinksGateway.withdrawalDigest ch p.1) ∈ w.signed))

namespace PealLinksGateway

variable {ch : Chain} {g g' : PealLinksGateway} {erc20 erc20' : ERC20}

lemma safe_eq_ok {x : Except Auction.Revert ERC20} {t : ERC20} : safe x = .ok t ↔ x = .ok t := by
  cases x <;> simp [safe, Except.mapError]

lemma withdrawalDigest_inj (hinj : Function.Injective ch.keccak256) {w w' : Withdrawal} :
    withdrawalDigest ch w = withdrawalDigest ch w' ↔ w = w' := by
  constructor
  · intro h
    have hinner := hinj h
    simp only [List.cons.injEq, and_true, true_and] at hinner
    have hfields := hinj hinner
    simp only [List.cons.injEq, and_true, true_and] at hfields
    cases w
    cases w'
    simpa using hfields
  · exact fun h => by rw [h]

/-! ### Rotation -/

lemma addSigner_all {epoch : Nat} {signers : List Nat} (h : signers.foldlM (addSigner epoch) g = .ok g')
    (hmembers : ∀ a, g.isSigner epoch a = true ↔ a ∈ g.signers) (hdistinct : g.signers.Nodup) :
    g'.signers = g.signers ++ signers ∧ g'.signers.Nodup ∧
      (∀ a, g'.isSigner epoch a = true ↔ a ∈ g'.signers) ∧
      (∀ n, n ≠ epoch → g'.isSigner n = g.isSigner n) ∧
      g' = { g with isSigner := g'.isSigner, signers := g'.signers } := by
  induction signers generalizing g with
  | nil =>
    rw [List.foldlM_nil, pure_eq_ok] at h
    subst h
    exact ⟨(List.append_nil _).symm, hdistinct, hmembers, fun _ _ => rfl, rfl⟩
  | cons s signers ih =>
    obtain ⟨mid, hs, hrest⟩ := (foldlM_cons_eq_ok _).mp h
    simp only [addSigner, bind_eq_ok, require_eq_ok, pure_eq_ok] at hs
    obtain ⟨-, ⟨-, hnew⟩, hmid⟩ := hs
    have hfresh : s ∉ g.signers := fun hmem => by
      rw [(hmembers s).mpr hmem] at hnew
      cases hnew
    have hseated : ∀ a, mid.isSigner epoch a = true ↔ a ∈ mid.signers := by
      intro a
      rw [← hmid]
      dsimp only
      rw [Function.update_self, List.mem_append, List.mem_singleton]
      by_cases has : a = s
      · rw [has, Function.update_self]
        exact ⟨fun _ => .inr rfl, fun _ => rfl⟩
      · rw [Function.update_of_ne has, hmembers a]
        exact ⟨.inl, fun h => h.resolve_right has⟩
    have hdist : mid.signers.Nodup := by
      rw [← hmid]
      dsimp only
      rw [List.nodup_append]
      refine ⟨hdistinct, List.nodup_singleton s, fun a ha b hb => ?_⟩
      rw [List.mem_singleton.mp hb]
      rintro rfl
      exact hfresh ha
    obtain ⟨hsigners, hnodup, hmem, hother, hsame⟩ := ih hrest hseated hdist
    refine ⟨?_, hnodup, hmem, fun n hn => ?_, ?_⟩
    · rw [hsigners, ← hmid, List.append_assoc]
      rfl
    · rw [hother n hn, ← hmid]
      exact Function.update_of_ne hn _ _
    · rw [hsame, ← hmid]

lemma rotate_ok {signers : List Nat} {threshold : Nat} (h : g.rotate signers threshold = .ok g')
    (hlater : ∀ n a, g.epoch < n → g.isSigner n a = false) :
    Committee g' ∧ (∀ n a, g'.epoch < n → g'.isSigner n a = false) ∧
      g' = { g with epoch := g.epoch + 1, threshold, isSigner := g'.isSigner, signers } := by
  simp only [rotate, bind_eq_ok, require_eq_ok, checked_eq_ok, pure_eq_ok] at h
  obtain ⟨-, ⟨-, hpos, hle⟩, epoch, ⟨-, rfl⟩, rotated, hall, rfl⟩ := h
  have hempty : ∀ a, g.isSigner (g.epoch + 1) a = true ↔ a ∈ ([] : List Nat) := by
    intro a
    rw [hlater _ a (Nat.lt_succ_self g.epoch)]
    exact iff_of_false (fun h => by cases h) List.not_mem_nil
  obtain ⟨hsigners, hnodup, hmem, hother, hsame⟩ := addSigner_all hall hempty List.nodup_nil
  have hepoch : rotated.epoch = g.epoch + 1 := congrArg PealLinksGateway.epoch hsame
  refine ⟨⟨?_, hnodup, Nat.one_le_iff_ne_zero.mpr hpos, ?_⟩, ?_, ?_⟩
  · dsimp only
    rw [hepoch]
    exact hmem
  · dsimp only
    rw [hsigners]
    exact hle
  · dsimp only
    intro n a hn
    rw [hepoch] at hn
    rw [hother n (by omega)]
    exact hlater n a (by omega)
  · rw [hsame, hsigners]
    rfl

/-! ### Deposits and withdrawals -/

lemma deposit_ok {caller token amount receipt : Nat}
    (h : g.deposit ch erc20 caller token amount receipt = .ok (g', erc20')) :
    erc20'.balanceOf ch.self = erc20.balanceOf ch.self + amount ∧
      erc20.transferFrom ch.self caller ch.self amount = .ok erc20' ∧
      g' = { g with
        depositCount := g.depositCount + 1
        deposited := g.deposited ++ [⟨g.depositCount + 1, token, caller, amount, receipt⟩] } := by
  simp only [deposit, bind_eq_ok, require_eq_ok, checked_eq_ok, checkedSub_eq_ok, pure_eq_ok, safe_eq_ok,
    Prod.mk.injEq] at h
  obtain ⟨-, -, -, -, -, -, after, hafter, received, ⟨hle, rfl⟩, -, hamount, id, ⟨-, rfl⟩, rfl, rfl⟩ := h
  exact ⟨by omega, hafter, rfl⟩

lemma checkSignature_all {digest : Nat} {signatures : List (List Nat)} {seen seen' : Nat × Nat}
    (h : signatures.foldlM (g.checkSignature ch digest) seen = .ok seen') :
    ∃ attesters : List Nat, (seen.1 :: attesters).Pairwise (· < ·) ∧
      seen'.2 = seen.2 + attesters.length ∧
      ∀ a ∈ attesters, g.isSigner g.epoch a = true ∧
        ∃ signature ∈ signatures, ch.recover digest signature = some a := by
  induction signatures generalizing seen with
  | nil =>
    rw [List.foldlM_nil, pure_eq_ok] at h
    subst h
    exact ⟨[], List.pairwise_singleton _ _, rfl, fun a ha => absurd ha List.not_mem_nil⟩
  | cons signature signatures ih =>
    obtain ⟨mid, hfirst, hrest⟩ := (foldlM_cons_eq_ok _).mp h
    simp only [checkSignature, bind_eq_ok, require_eq_ok, expect_eq_ok, pure_eq_ok] at hfirst
    obtain ⟨signer, hsigner, -, hlt, -, hmember, rfl⟩ := hfirst
    obtain ⟨attesters, hsorted, hcount, hattest⟩ := ih hrest
    refine ⟨signer :: attesters, ?_, ?_, ?_⟩
    · rw [List.pairwise_cons]
      refine ⟨fun a ha => ?_, hsorted⟩
      rcases List.mem_cons.mp ha with rfl | ha
      · exact hlt
      · exact lt_trans hlt ((List.pairwise_cons.mp hsorted).1 a ha)
    · rw [hcount, List.length_cons]
      dsimp only
      omega
    · intro a ha
      rcases List.mem_cons.mp ha with rfl | ha
      · exact ⟨hmember, signature, List.mem_cons_self, hsigner⟩
      · obtain ⟨hmem, s, hs, hrec⟩ := hattest a ha
        exact ⟨hmem, s, List.mem_cons_of_mem _ hs, hrec⟩

lemma withdraw_ok {wd : Withdrawal} {signatures : List (List Nat)}
    (h : g.withdraw ch erc20 wd signatures = .ok (g', erc20')) :
    wd.chainId = ch.chainid ∧ wd.gateway = ch.self ∧ wd.epoch = g.epoch ∧
      g.consumed wd.withdrawalId = false ∧
      (∃ attesters : List Nat, attesters.Nodup ∧ g.threshold ≤ attesters.length ∧
        ∀ a ∈ attesters, g.isSigner g.epoch a = true ∧
          ∃ signature ∈ signatures, ch.recover (withdrawalDigest ch wd) signature = some a) ∧
      wd.amount ≤ erc20.balanceOf ch.self ∧
      erc20' = erc20.move ch.self wd.recipient wd.amount ∧
      g' = { g with
        consumed := Function.update g.consumed wd.withdrawalId true
        withdrawn := g.withdrawn ++ [⟨wd.withdrawalId, wd.token, wd.recipient, wd.amount, wd.epoch⟩] } := by
  simp only [withdraw, bind_eq_ok, require_eq_ok, pure_eq_ok, safe_eq_ok, ERC20.transfer_eq_ok,
    Prod.mk.injEq] at h
  obtain ⟨-, -, -, hchain, -, hgateway, -, hepoch, -, -, -, -, -, -, -, -, -, hnew, seen, hseen, -, hcount,
    after, ⟨-, hfunds, rfl⟩, rfl, rfl⟩ := h
  obtain ⟨attesters, hsorted, hlen, hattest⟩ := checkSignature_all hseen
  refine ⟨hchain, hgateway, hepoch, hnew, ⟨attesters, ?_, ?_, hattest⟩, hfunds, rfl, rfl⟩
  · exact (List.pairwise_cons.mp hsorted).2.imp fun hlt => hlt.ne
  · rw [hlen] at hcount
    dsimp only at hcount
    omega

end PealLinksGateway

/-! ### What every step keeps -/

structure Kept (ch : Chain) (w : World) : Prop extends ReleaseSafe ch w where
  later : ∀ n a, w.gateway.epoch < n → w.gateway.isSigner n a = false
  consumed : ∀ id, w.gateway.consumed id = true ↔ id ∈ w.gateway.withdrawn.map Withdrawn.withdrawalId
  unspent : ∀ token spender, (w.erc20 token).allowance ch.self spender = 0

variable {ch : Chain} {w w' : World} {e : Nat × Call}

lemma Committee.of_same {g g' : PealLinksGateway} (h : Committee g) (hepoch : g'.epoch = g.epoch)
    (hthreshold : g'.threshold = g.threshold) (hmapping : g'.isSigner = g.isSigner)
    (hsigners : g'.signers = g.signers) : Committee g' where
  members := by
    rw [hepoch, hmapping, hsigners]
    exact h.members
  distinct := hsigners ▸ h.distinct
  positive := hthreshold ▸ h.positive
  reachable := by
    rw [hthreshold, hsigners]
    exact h.reachable

lemma Kept.administered {g : PealLinksGateway} (h : Kept ch w) (hcommittee : Committee g)
    (hlater : ∀ n a, g.epoch < n → g.isSigner n a = false) (hconsumed : g.consumed = w.gateway.consumed)
    (hdeposited : g.deposited = w.gateway.deposited) (hwithdrawn : g.withdrawn = w.gateway.withdrawn) :
    Kept ch { w with gateway := g } where
  once := by
    dsimp only
    rw [hwithdrawn]
    exact h.once
  committee := hcommittee
  accounted token := by
    unfold World.releasedOf World.depositedOf World.returnedOf
    dsimp only
    rw [hdeposited, hwithdrawn]
    exact h.accounted token
  later := hlater
  consumed id := by
    dsimp only
    rw [hconsumed, hwithdrawn]
    exact h.consumed id
  unspent := h.unspent

lemma Kept.rotated {g : PealLinksGateway} {signers : List Nat} {threshold : Nat} (h : Kept ch w)
    (hr : w.gateway.rotate signers threshold = .ok g) : Kept ch { w with gateway := g } := by
  obtain ⟨hcommittee, hlater, hsame⟩ := PealLinksGateway.rotate_ok hr h.later
  exact h.administered hcommittee hlater (by rw [hsame]) (by rw [hsame]) (by rw [hsame])

lemma Kept.moved {token sender recipient amount : Nat} {t : ERC20} (h : Kept ch w)
    (hbalance : t.balanceOf = ((w.erc20 token).move sender recipient amount).balanceOf)
    (hallowance : ∀ a s, t.allowance a s ≤ (w.erc20 token).allowance a s)
    (hsender : sender = ch.self → amount = 0) : Kept ch (w.move ch token recipient amount t) := by
  have harrived : t.balanceOf ch.self = (w.erc20 token).balanceOf ch.self +
      if recipient = ch.self then amount else 0 := by
    rw [hbalance]
    by_cases hs : sender = ch.self
    · rw [hsender hs, hs]
      by_cases hr : recipient = ch.self
      · rw [hr, ERC20.move_to_self _ (Nat.zero_le _), if_pos rfl]
        rfl
      · have hout := ERC20.move_out hr (Nat.zero_le ((w.erc20 token).balanceOf ch.self))
        rw [if_neg hr]
        omega
    · exact ERC20.move_balance_of_ne _ (Ne.symm hs)
  refine { h with accounted := fun k => ?_, unspent := fun k spender => ?_ }
  · have hk := h.accounted k
    unfold World.releasedOf World.depositedOf World.returnedOf World.move at *
    dsimp only
    by_cases hkt : k = token
    · subst hkt
      rw [Function.update_self, harrived]
      split_ifs
      · rw [Function.update_self]
        omega
      · omega
    · rw [Function.update_of_ne hkt]
      split_ifs
      · rw [Function.update_of_ne hkt]
        exact hk
      · exact hk
  · have hnone := h.unspent k spender
    unfold World.move
    dsimp only
    by_cases hkt : k = token
    · subst hkt
      rw [Function.update_self]
      exact Nat.le_zero.mp (hnone ▸ hallowance ch.self spender)
    · rw [Function.update_of_ne hkt]
      exact hnone

lemma Kept.approved {token owner spender amount : Nat} (h : Kept ch w) (howner : owner ≠ ch.self) :
    Kept ch { w with erc20 := Function.update w.erc20 token ((w.erc20 token).approve owner spender amount) } := by
  refine { h with accounted := fun k => ?_, unspent := fun k s => ?_ }
  · have hk := h.accounted k
    dsimp only
    by_cases hkt : k = token
    · subst hkt
      rw [Function.update_self, ERC20.approve_balanceOf]
      exact hk
    · rw [Function.update_of_ne hkt]
      exact hk
  · dsimp only
    by_cases hkt : k = token
    · subst hkt
      rw [Function.update_self]
      unfold ERC20.approve
      dsimp only
      rw [Function.update_of_ne (Ne.symm howner)]
      exact h.unspent k s
    · rw [Function.update_of_ne hkt]
      exact h.unspent k s

lemma Kept.deposit {caller token amount receipt : Nat} {r : PealLinksGateway × ERC20} (h : Kept ch w)
    (hr : w.gateway.deposit ch (w.erc20 token) caller token amount receipt = .ok r) :
    Kept ch (w.setToken token r) := by
  obtain ⟨harrived, htransfer, hsame⟩ := PealLinksGateway.deposit_ok hr
  obtain ⟨-, -, hallowance⟩ := ERC20.transferFrom_ok htransfer
  obtain ⟨g, t⟩ := r
  subst hsame
  refine ⟨⟨h.once, h.committee.of_same rfl rfl rfl rfl, fun k => ?_⟩, h.later, h.consumed, fun k s => ?_⟩
  · have hk := h.accounted k
    unfold World.releasedOf World.depositedOf World.returnedOf World.setToken at *
    dsimp only at harrived ⊢
    rw [sumWhere_append, sumWhere_cons, sumWhere_nil]
    by_cases hkt : k = token
    · subst hkt
      rw [Function.update_self, harrived, if_pos (beq_self_eq_true k)]
      dsimp only
      omega
    · rw [Function.update_of_ne hkt, if_neg (by simp [Ne.symm hkt])]
      exact hk
  · unfold World.setToken
    dsimp only
    by_cases hkt : k = token
    · subst hkt
      rw [Function.update_self]
      exact Nat.le_zero.mp (h.unspent k s ▸ hallowance ch.self s)
    · rw [Function.update_of_ne hkt]
      exact h.unspent k s

lemma Kept.withdraw {wd : Withdrawal} {signatures : List (List Nat)} {r : PealLinksGateway × ERC20}
    (h : Kept ch w) (hr : w.gateway.withdraw ch (w.erc20 wd.token) wd signatures = .ok r) :
    Kept ch (w.setToken wd.token r) := by
  obtain ⟨-, -, -, hnew, -, hfunds, hmoved, hsame⟩ := PealLinksGateway.withdraw_ok hr
  obtain ⟨g, t⟩ := r
  subst hsame hmoved
  have hfresh : wd.withdrawalId ∉ w.gateway.withdrawn.map Withdrawn.withdrawalId := fun hmem => by
    rw [(h.consumed _).mpr hmem] at hnew
    cases hnew
  refine ⟨⟨?_, h.committee.of_same rfl rfl rfl rfl, fun k => ?_⟩, h.later, fun id => ?_, fun k s => ?_⟩
  · unfold World.setToken
    dsimp only
    rw [List.map_append, List.nodup_append]
    refine ⟨h.once, List.nodup_singleton _, fun a ha b hb => ?_⟩
    rw [List.mem_singleton.mp hb]
    rintro rfl
    exact hfresh ha
  · have hk := h.accounted k
    unfold World.releasedOf World.depositedOf World.returnedOf World.setToken at *
    dsimp only
    rw [sumWhere_append, sumWhere_append, sumWhere_cons, sumWhere_cons, sumWhere_nil, sumWhere_nil]
    dsimp only
    by_cases hkt : k = wd.token
    · subst hkt
      rw [Function.update_self, beq_self_eq_true, if_pos rfl, Bool.true_and]
      by_cases hself : wd.recipient = ch.self
      · rw [if_pos (beq_iff_eq.mpr hself), hself, ERC20.move_to_self _ hfunds]
        omega
      · have hout := ERC20.move_out hself hfunds
        rw [if_neg (by simpa using hself)]
        omega
    · have hne : (wd.token == k) = false := beq_false_of_ne (Ne.symm hkt)
      rw [Function.update_of_ne hkt, hne, Bool.false_and]
      exact hk
  · unfold World.setToken
    dsimp only
    rw [List.map_append, List.mem_append, List.map_singleton, List.mem_singleton, ← h.consumed id]
    by_cases hid : id = wd.withdrawalId
    · rw [hid, Function.update_self]
      exact iff_of_true rfl (.inr rfl)
    · rw [Function.update_of_ne hid]
      exact ⟨.inl, fun h => h.resolve_right hid⟩
  · unfold World.setToken
    dsimp only
    by_cases hkt : k = wd.token
    · subst hkt
      rw [Function.update_self]
      exact h.unspent _ s
    · rw [Function.update_of_ne hkt]
      exact h.unspent k s

/-- What an accepted call does. -/
inductive Effect (ch : Chain) (w : World) : Nat × Call → World → Prop where
  | deposit {caller token amount receipt : Nat} {r : PealLinksGateway × ERC20}
      (h : w.gateway.deposit ch (w.erc20 token) caller token amount receipt = .ok r) :
      Effect ch w (caller, .deposit token amount receipt) (w.setToken token r)
  | withdraw {caller : Nat} {wd : Withdrawal} {signatures : List (List Nat)} {r : PealLinksGateway × ERC20}
      (h : w.gateway.withdraw ch (w.erc20 wd.token) wd signatures = .ok r) :
      Effect ch w (caller, .withdraw wd signatures) (w.setToken wd.token r)
  | rotate {caller : Nat} {signers : List Nat} {threshold : Nat} {g : PealLinksGateway}
      (h : w.gateway.rotate signers threshold = .ok g) :
      Effect ch w (caller, .rotateSigners signers threshold) { w with gateway := g }
  | administer {e : Nat × Call} (owner pendingOwner : Nat) (paused : Bool) (tokens : Nat → TokenConfig) :
      Effect ch w e { w with gateway := { w.gateway with owner, pendingOwner, paused, tokens } }
  | sign {caller digest : Nat} :
      Effect ch w (caller, .sign digest) { w with signed := w.signed ++ [(caller, digest)] }
  | move {e : Nat × Call} {token sender recipient amount : Nat} {t : ERC20}
      (hbalance : t.balanceOf = ((w.erc20 token).move sender recipient amount).balanceOf)
      (hallowance : ∀ a s, t.allowance a s ≤ (w.erc20 token).allowance a s)
      (hsender : sender = ch.self → ∃ spender, amount ≤ (w.erc20 token).allowance ch.self spender) :
      Effect ch w e (w.move ch token recipient amount t)
  | approve {caller token spender amount : Nat} (h : caller ≠ ch.self) :
      Effect ch w (caller, .approve token spender amount)
        { w with erc20 := Function.update w.erc20 token ((w.erc20 token).approve caller spender amount) }

lemma step_effect (hstep : w.step ch e = .ok w') : Effect ch w e w' := by
  obtain ⟨caller, call⟩ := e
  unfold World.step at hstep
  simp only [bind_eq_ok, require_eq_ok] at hstep
  obtain ⟨-, ⟨hcaller, -⟩, hstep⟩ := hstep
  cases call with
  | deposit token amount receipt =>
    simp only [bind_eq_ok, pure_eq_ok] at hstep
    obtain ⟨r, hr, rfl⟩ := hstep
    exact .deposit hr
  | withdraw wd signatures =>
    simp only [bind_eq_ok, pure_eq_ok] at hstep
    obtain ⟨r, hr, rfl⟩ := hstep
    exact .withdraw hr
  | rotateSigners signers threshold =>
    simp only [bind_eq_ok, pure_eq_ok, PealLinksGateway.rotateSigners] at hstep
    obtain ⟨g, ⟨-, -, hg⟩, rfl⟩ := hstep
    exact .rotate hg
  | configureToken token allowed maxWithdrawal =>
    simp only [bind_eq_ok, pure_eq_ok, PealLinksGateway.configureToken] at hstep
    obtain ⟨g, ⟨-, -, rfl⟩, rfl⟩ := hstep
    exact .administer w.gateway.owner w.gateway.pendingOwner w.gateway.paused _
  | pause =>
    simp only [bind_eq_ok, pure_eq_ok, PealLinksGateway.pause] at hstep
    obtain ⟨g, ⟨-, -, -, -, rfl⟩, rfl⟩ := hstep
    exact .administer w.gateway.owner w.gateway.pendingOwner true w.gateway.tokens
  | unpause =>
    simp only [bind_eq_ok, pure_eq_ok, PealLinksGateway.unpause] at hstep
    obtain ⟨g, ⟨-, -, -, -, rfl⟩, rfl⟩ := hstep
    exact .administer w.gateway.owner w.gateway.pendingOwner false w.gateway.tokens
  | transferOwnership newOwner =>
    simp only [bind_eq_ok, pure_eq_ok, PealLinksGateway.transferOwnership] at hstep
    obtain ⟨g, ⟨-, -, rfl⟩, rfl⟩ := hstep
    exact .administer w.gateway.owner newOwner w.gateway.paused w.gateway.tokens
  | acceptOwnership =>
    simp only [bind_eq_ok, pure_eq_ok, PealLinksGateway.acceptOwnership] at hstep
    obtain ⟨g, ⟨-, -, rfl⟩, rfl⟩ := hstep
    exact .administer caller 0 w.gateway.paused w.gateway.tokens
  | renounceOwnership =>
    simp only [bind_eq_ok, pure_eq_ok, PealLinksGateway.renounceOwnership] at hstep
    obtain ⟨g, ⟨-, -, rfl⟩, rfl⟩ := hstep
    exact .administer 0 0 w.gateway.paused w.gateway.tokens
  | sign digest =>
    simp only [pure_eq_ok] at hstep
    subst hstep
    exact .sign
  | transfer token recipient amount =>
    simp only [bind_eq_ok, pure_eq_ok, PealLinksGateway.safe_eq_ok, ERC20.transfer_eq_ok] at hstep
    obtain ⟨t, ⟨-, -, rfl⟩, rfl⟩ := hstep
    exact .move rfl (fun _ _ => le_refl _) fun heq => absurd heq hcaller
  | transferFrom token sender recipient amount =>
    simp only [bind_eq_ok, pure_eq_ok, PealLinksGateway.safe_eq_ok] at hstep
    obtain ⟨t, ht, rfl⟩ := hstep
    obtain ⟨hallowed, hbalance, hallowance⟩ := ERC20.transferFrom_ok ht
    exact .move hbalance hallowance fun heq => ⟨caller, heq ▸ hallowed⟩
  | approve token spender amount =>
    simp only [pure_eq_ok] at hstep
    subst hstep
    exact .approve hcaller

lemma Kept.step (h : Kept ch w) (hstep : w.step ch e = .ok w') : Kept ch w' := by
  cases step_effect hstep with
  | deposit hr => exact h.deposit hr
  | withdraw hr => exact h.withdraw hr
  | rotate hr => exact h.rotated hr
  | administer owner pendingOwner paused tokens =>
    exact h.administered (h.committee.of_same rfl rfl rfl rfl) h.later rfl rfl rfl
  | sign => exact { h with }
  | move hbalance hallowance hsender =>
    refine h.moved hbalance hallowance fun heq => ?_
    obtain ⟨spender, hallowed⟩ := hsender heq
    rw [h.unspent] at hallowed
    exact Nat.le_zero.mp hallowed
  | approve hcaller => exact h.approved hcaller

lemma kept_deployed {issued : Nat → ERC20} {owner threshold : Nat} {signers : List Nat}
    (h : World.deployed ch issued owner signers threshold = .ok w) : Kept ch w := by
  simp only [World.deployed, PealLinksGateway.construct, bind_eq_ok, require_eq_ok, pure_eq_ok] at h
  obtain ⟨g, ⟨-, -, hg⟩, rfl⟩ := h
  obtain ⟨hcommittee, hlater, hsame⟩ := PealLinksGateway.rotate_ok hg fun _ _ _ => rfl
  have hwithdrawn : g.withdrawn = [] := congrArg PealLinksGateway.withdrawn hsame
  have hdeposited : g.deposited = [] := congrArg PealLinksGateway.deposited hsame
  have hconsumed : g.consumed = fun _ => false := congrArg PealLinksGateway.consumed hsame
  refine ⟨⟨?_, hcommittee, fun token => ?_⟩, hlater, fun id => ?_, fun token spender => ?_⟩
  · dsimp only
    rw [hwithdrawn]
    exact List.nodup_nil
  · unfold World.releasedOf World.depositedOf World.returnedOf
    dsimp only
    rw [hwithdrawn, hdeposited]
    exact (Nat.zero_add _).symm
  · dsimp only
    rw [hwithdrawn, hconsumed]
    exact iff_of_false Bool.false_ne_true List.not_mem_nil
  · dsimp only
    rw [Function.update_self]

lemma deployed_withdrawn {issued : Nat → ERC20} {owner threshold : Nat} {signers : List Nat}
    (h : World.deployed ch issued owner signers threshold = .ok w) : w.gateway.withdrawn = [] := by
  simp only [World.deployed, PealLinksGateway.construct, bind_eq_ok, require_eq_ok, pure_eq_ok] at h
  obtain ⟨g, ⟨-, -, hg⟩, rfl⟩ := h
  obtain ⟨-, -, hsame⟩ := PealLinksGateway.rotate_ok hg fun _ _ _ => rfl
  have hlog := congrArg PealLinksGateway.withdrawn hsame
  exact hlog

lemma step_withdrawn (hkept : Kept ch w) (h : w.step ch e = .ok w') :
    (∃ wd signatures r, e.2 = .withdraw wd signatures ∧
      w.gateway.withdraw ch (w.erc20 wd.token) wd signatures = .ok r ∧ w' = w.setToken wd.token r) ∨
    w'.gateway.withdrawn = w.gateway.withdrawn := by
  cases step_effect h with
  | withdraw hr => exact .inl ⟨_, _, _, rfl, hr, rfl⟩
  | deposit hr =>
    obtain ⟨-, -, hsame⟩ := PealLinksGateway.deposit_ok hr
    have hlog := congrArg PealLinksGateway.withdrawn hsame
    exact .inr hlog
  | rotate hr =>
    obtain ⟨-, -, hsame⟩ := PealLinksGateway.rotate_ok hr hkept.later
    have hlog := congrArg PealLinksGateway.withdrawn hsame
    exact .inr hlog
  | administer => exact .inr rfl
  | sign => exact .inr rfl
  | move => exact .inr rfl
  | approve => exact .inr rfl

lemma releases_attested (hinj : Function.Injective ch.keccak256) (h : Kept ch w) (hunforged : Unforged ch w e) :
    ReleasesAttested ch w e := by
  intro w' hstep r hr hnew
  rcases step_withdrawn h hstep with ⟨wd, signatures, ⟨g, t⟩, he, hok, rfl⟩ | hsame
  · obtain ⟨hchain, hgateway, hepoch, -, ⟨attesters, hdistinct, hcount, hattest⟩, -, -, rfl⟩ :=
      PealLinksGateway.withdraw_ok hok
    have hsigned := hunforged (wd, signatures) (congrArg Call.withdrawal? he)
    refine ⟨wd, ⟨hchain, hgateway, hepoch, attesters, hdistinct, hcount, fun a ha => ?_⟩, ?_⟩
    · obtain ⟨hmember, signature, hmem, hrecover⟩ := hattest a ha
      exact ⟨(h.committee.members a).mp hmember, _, hsigned signature hmem a hrecover,
        fun wd' => PealLinksGateway.withdrawalDigest_inj hinj⟩
    · exact List.mem_singleton.mp ((List.mem_append.mp hr).resolve_left hnew)
  · rw [hsame] at hr
    exact absurd hr hnew

/-- Every id is released at most once, each time by a quorum of the epoch over exactly that withdrawal, and
the gateway holds what was deposited or sent to it less what it released to others. -/
theorem release_safety (hinj : Function.Injective ch.keccak256) {issued : Nat → ERC20} {owner threshold : Nat}
    {signers : List Nat} (hdeployed : World.deployed ch issued owner signers threshold = .ok w)
    {es : List (Nat × Call)} (hunforged : Along (World.step ch) (Unforged ch) w es) :
    Throughout (World.step ch) (ReleaseSafe ch) w es ∧ Along (World.step ch) (ReleasesAttested ch) w es := by
  have hstart := kept_deployed hdeployed
  constructor
  · intro n
    exact (exec_invariant (I := Kept ch) (World.step ch) (fun _ _ _ h => h.step) hstart (es.take n)).toReleaseSafe
  · exact along_of_invariant (I := Kept ch) (World.step ch) (fun _ _ _ h => h.step)
      (fun _ _ h hpre => releases_attested hinj h hpre) hstart hunforged

/-! ### A release to the gateway itself -/

def sampleRecover (digest : Nat) : List Nat → Option Nat
  | [signer, signed] => if signed = digest then some signer else none
  | _ => none

def sampleChain : Chain where
  keccak256 := pairingHash
  recover := sampleRecover
  chainid := 1
  self := 42
  withdrawalTypehash := 2
  domainTypehash := 3
  nameHash := 4
  versionHash := 5

def sampleToken (_ : Nat) : ERC20 := ⟨fun a => if a = 9 then 50 else 0, fun _ _ => 0⟩

def sampleCommittee : PealLinksGateway :=
  let seated := Function.update (fun _ _ => false) 1 (Function.update (fun _ => false) 5 true)
  { PealLinksGateway.unset 1 with
    epoch := 1
    threshold := 2
    isSigner := Function.update seated 1 (Function.update (seated 1) 7 true)
    signers := [5, 7] }

/-- Holder 9 deposits five tokens, and the committee releases them to `recipient`. -/
def releaseTo (recipient : Nat) : List (Nat × Call) :=
  let wd : Withdrawal := ⟨1, 42, 100, recipient, 5, 8, 1⟩
  let digest := PealLinksGateway.withdrawalDigest sampleChain wd
  [(1, .configureToken 100 true 1000), (9, .approve 100 42 50), (9, .deposit 100 5 77), (5, .sign digest),
    (7, .sign digest), (9, .withdraw wd [[5, digest], [7, digest]])]

def sampleStart : World where
  gateway := sampleCommittee
  erc20 token := ⟨(sampleToken token).balanceOf, Function.update (sampleToken token).allowance 42 fun _ => 0⟩
  direct token := (sampleToken token).balanceOf 42
  signed := []

lemma sampleStart_deployed : World.deployed sampleChain sampleToken 1 [5, 7] 2 = .ok sampleStart := rfl

theorem release_safety_sample :
    Throughout (World.step sampleChain) (ReleaseSafe sampleChain) sampleStart (releaseTo 9) ∧
      Along (World.step sampleChain) (ReleasesAttested sampleChain) sampleStart (releaseTo 9) :=
  release_safety pairingHash_injective sampleStart_deployed (by decide +kernel)

/-- A release whose recipient is the gateway counts as released and leaves nothing less behind. -/
theorem release_returns :
    Along (World.step sampleChain) (Unforged sampleChain) sampleStart (releaseTo 42) ∧
      ¬ ∀ token,
        ((exec (World.step sampleChain) sampleStart (releaseTo 42)).erc20 token).balanceOf 42 +
            (exec (World.step sampleChain) sampleStart (releaseTo 42)).releasedOf token =
          (exec (World.step sampleChain) sampleStart (releaseTo 42)).depositedOf token +
            (exec (World.step sampleChain) sampleStart (releaseTo 42)).direct token := by
  refine ⟨by decide +kernel, fun h => ?_⟩
  have hfive := h 100
  revert hfive
  decide +kernel

end Peal.Gateway
