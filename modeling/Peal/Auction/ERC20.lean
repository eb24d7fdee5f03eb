import Peal.Auction.Types
import Peal.Library.Fallible

namespace Peal.Auction
open Peal.Fallible

/-- A standard ERC-20 ledger: exact amounts, no fee, no callback. -/
structure ERC20 where
  balanceOf : Nat → Nat
  allowance : Nat → Nat → Nat

namespace ERC20

def move (t : ERC20) (sender recipient amount : Nat) : ERC20 :=
  let debited := Function.update t.balanceOf sender (t.balanceOf sender - amount)
  ⟨Function.update debited recipient (debited recipient + amount), t.allowance⟩

def transfer (t : ERC20) (sender recipient amount : Nat) : Except Revert ERC20 := do
  require (recipient ≠ 0 ∧ amount ≤ t.balanceOf sender) .transferRefused
  .ok (t.move sender recipient amount)

def approve (t : ERC20) (owner spender amount : Nat) : ERC20 :=
  ⟨t.balanceOf, Function.update t.allowance owner (Function.update (t.allowance owner) spender amount)⟩

/-- The largest allowance is unlimited and is not spent down. -/
def transferFrom (t : ERC20) (spender sender recipient amount : Nat) : Except Revert ERC20 := do
  require (amount ≤ t.allowance sender spender) .transferRefused
  let spent := if t.allowance sender spender = 2 ^ 256 - 1 then t
    else t.approve sender spender (t.allowance sender spender - amount)
  spent.transfer sender recipient amount

@[simp] lemma approve_balanceOf (t : ERC20) (owner spender amount : Nat) :
    (t.approve owner spender amount).balanceOf = t.balanceOf := rfl

lemma move_out {t : ERC20} {sender recipient amount : Nat} (hr : recipient ≠ sender)
    (h : amount ≤ t.balanceOf sender) :
    (t.move sender recipient amount).balanceOf sender + amount = t.balanceOf sender := by
  unfold move
  dsimp only
  rw [Function.update_of_ne hr.symm, Function.update_self]
  omega

lemma move_in {t : ERC20} {sender recipient amount : Nat} (hr : recipient ≠ sender) :
    (t.move sender recipient amount).balanceOf recipient = t.balanceOf recipient + amount := by
  unfold move
  dsimp only
  rw [Function.update_self, Function.update_of_ne hr]

lemma move_sender_ge (t : ERC20) (sender recipient amount : Nat) :
    t.balanceOf sender ≤ (t.move sender recipient amount).balanceOf sender + amount := by
  unfold move
  dsimp only
  by_cases hr : recipient = sender
  · rw [hr, Function.update_self, Function.update_self]
    omega
  · rw [Function.update_of_ne (Ne.symm hr), Function.update_self]
    omega

lemma transfer_eq_ok {t t' : ERC20} {sender recipient amount : Nat} :
    t.transfer sender recipient amount = .ok t' ↔
      recipient ≠ 0 ∧ amount ≤ t.balanceOf sender ∧ t.move sender recipient amount = t' := by
  simp [transfer, and_assoc]

lemma move_balance_of_ne (t : ERC20) {sender recipient amount a : Nat} (h : a ≠ sender) :
    (t.move sender recipient amount).balanceOf a = t.balanceOf a + if recipient = a then amount else 0 := by
  unfold move
  dsimp only
  by_cases ha : a = recipient
  · subst ha
    rw [Function.update_self, Function.update_of_ne h, if_pos rfl]
  · rw [Function.update_of_ne ha, Function.update_of_ne h, if_neg (Ne.symm ha)]
    rfl

lemma move_to_self (t : ERC20) {sender amount : Nat} (h : amount ≤ t.balanceOf sender) :
    (t.move sender sender amount).balanceOf sender = t.balanceOf sender := by
  unfold move
  dsimp only
  rw [Function.update_self, Function.update_self]
  omega

lemma transferFrom_ok {t t' : ERC20} {spender sender recipient amount : Nat}
    (h : t.transferFrom spender sender recipient amount = .ok t') :
    amount ≤ t.allowance sender spender ∧ t'.balanceOf = (t.move sender recipient amount).balanceOf ∧
      ∀ a s, t'.allowance a s ≤ t.allowance a s := by
  unfold transferFrom at h
  simp only [bind_eq_ok, require_eq_ok, transfer_eq_ok] at h
  obtain ⟨-, hallowed, -, -, rfl⟩ := h
  refine ⟨hallowed, ?_, fun a s => ?_⟩
  · split_ifs
    · rfl
    · rfl
  · split_ifs
    · exact le_refl _
    · unfold move approve
      dsimp only
      by_cases ha : a = sender
      · subst ha
        rw [Function.update_self]
        by_cases hs : s = spender
        · subst hs
          rw [Function.update_self]
          exact Nat.sub_le _ _
        · rw [Function.update_of_ne hs]
      · rw [Function.update_of_ne ha]

end ERC20

end Peal.Auction
