import Peal.Links.WalletCalls
import Peal.Links.ReceiptTree

namespace Peal.Links
open Peal.Fallible Peal.Runs Peal.AppendTree

/-! # What a wallet checks of a receipt before it counts or claims it -/

variable {c : Crypto} {prover : Prover} {inst : Instance}

/-- A path for a position: as long as the log is deep, with the position's bits. -/
structure PathFits (depth position : Nat) (path : MerklePath) : Prop where
  siblings : path.siblings.length = depth
  indexBits : path.indexBits = AppendTree.indexBits depth position
  range : position < 2 ^ depth

lemma leaf_of_rootFromPath (hnode : Function.Injective2 (treeNode c)) {depth position : Nat} {path : MerklePath}
    (hpath : PathFits depth position path) {leaf : Nat → Fr} {value : Fr}
    (hroot : rootFromPath c value path = plainRoot (treeNode c) depth leaf) : leaf position = value := by
  have htop : position / 2 ^ depth = 0 := Nat.div_eq_of_lt hpath.range
  have hown : climb (treeNode c) (leaf position) _ = _ := climb_leaf leaf position depth
  rw [htop, plainNode_root, ← hroot, ← hpath.indexBits] at hown
  apply climb_injective hnode _ hown
  rw [hpath.siblings, plainSiblings, List.length_map, List.length_range]

/-- What a receipt must pass to count, apart from its own commitment. -/
def Passes (c : Crypto) (w : Wallet) (r : HeldReceipt) (witness : ReceiptWitness) : Prop :=
  r.opening.receiver = w.account ∧ rootFromPath c r.receipt witness.path = witness.root ∧
    w.claimed.contains r.position = false

variable {w w₁ : Wallet}

lemma receiptVerifies_iff (hw : InOrder c w) {idx : Nat} {r : HeldReceipt} (hr : w.receipts[idx]? = some r)
    (witness : ReceiptWitness) : w.receiptVerifies c r witness = true ↔ Passes c w r witness := by
  have hcommit := hw.commits r (List.mem_of_getElem? hr)
  unfold Wallet.receiptVerifies Passes
  rw [decide_eq_true_eq]
  exact and_iff_right hcommit.symm

/-- Verifying answers whether the receipt passes, and marks it accordingly; of a claimed receipt the answer
is no. -/
lemma verifyReceipt_checks (hw : InOrder c w) {idx : Nat} {r : HeldReceipt} (hr : w.receipts[idx]? = some r)
    (witness : ReceiptWitness) : ∃ w' ok, w.verifyReceipt c idx witness = .ok (w', ok) ∧
      (ok = true ↔ Passes c w r witness) ∧
      w'.receipts = (w.setStatus idx (if ok then .unclaimed else .invalid)).receipts ∧
      (r.status = .claimed → ok = false) := by
  have hclaimed : r.status = .claimed → ¬Passes c w r witness := by
    rintro hstatus ⟨-, -, hunclaimed⟩
    rw [hw.marked r (List.mem_of_getElem? hr) hstatus] at hunclaimed
    cases hunclaimed
  have hverifies := receiptVerifies_iff hw hr witness
  unfold Wallet.verifyReceipt
  rw [hr]
  by_cases hpasses : Passes c w r witness
  · refine ⟨_, true, if_pos (hverifies.mpr hpasses), by simp [hpasses], rfl, ?_⟩
    exact fun hstatus => absurd hpasses (hclaimed hstatus)
  · refine ⟨_, false, if_neg fun hyes => hpasses (hverifies.mp hyes), by simp [hpasses], rfl, fun _ => rfl⟩

/-- A claim is prepared of a receipt that passes and stands within the log. It proves, and marks as claimed,
the position the receipt is held for. -/
lemma prepareReceive_checks {idx : Nat} {witness : ReceiptWitness} {now : Nat} {rNew rDummy : Fr}
    {x : OpCircuit} (h : w.prepareReceive c prover inst idx witness now rNew rDummy = .ok (w₁, x)) :
    ∃ r p, w.receipts[idx]? = some r ∧ Passes c w r witness ∧ r.position < 2 ^ inst.receiptDepth ∧
      x.pos = r.position ∧ x.path = witness.path ∧ x.nullInsert.pid = r.position ∧
      w₁.pending = some p ∧ p.kind = .receive r.position r.opening.amount ∧
      p.claimedAfter = some ⟨w.claimed.depth, w.claimed.positions ++ [r.position]⟩ := by
  unfold Wallet.prepareReceive ClaimedSet.insert at h
  simp only [bind_eq_ok, require_eq_ok, expect_eq_ok, pure_eq_ok, Prod.mk.injEq] at h
  obtain ⟨-, -, -, -, r, hr, -, hreceiver, -, ⟨-, hroot⟩, -, hrange, -, -, ⟨after, insertion⟩,
    ⟨-, -, -, hunclaimed, rfl, rfl⟩, rfl, rfl⟩ := h
  exact ⟨r, _, hr, ⟨hreceiver, hroot, hunclaimed⟩, hrange, rfl, rfl, rfl, rfl, rfl, rfl⟩

lemma passes_served {t : LevelTree} (ht : t.UpToDate c inst.receiptDepth) (hdepth : inst.receiptDepth < 64)
    {r : HeldReceipt} (hreceiver : r.opening.receiver = w.account)
    (hleaf : t.leaves[r.position]? = some r.receipt) (hunclaimed : w.claimed.contains r.position = false)
    {size : Nat} {path : MerklePath} {root : Fr} (hpath : t.pathAt c r.position size = .ok path)
    (hroot : t.rootAt c size = .ok root) : Passes c w r ⟨path, root⟩ := by
  have hsizes : ¬(size ≤ r.position ∨ t.size < size) := by
    unfold LevelTree.pathAt at hpath
    simp only [bind_eq_ok, require_eq_ok] at hpath
    obtain ⟨-, hsizes, -⟩ := hpath
    exact hsizes
  obtain ⟨path', leaf, hpath', hleaf', -, -, hclimb⟩ :=
    ht.path hdepth (show r.position < size by omega) (show size ≤ t.size by omega)
  obtain rfl := Except.ok.inj (hpath.symm.trans hpath')
  obtain rfl := Option.some.inj (hleaf.symm.trans hleaf')
  rw [ht.rootAt, if_pos (by omega)] at hroot
  exact ⟨hreceiver, hclimb.trans (Except.ok.inj hroot), hunclaimed⟩

/-- A hash that gives its inputs back. -/
def pairCrypto : Crypto := { sampleCrypto with hash := fun domain inputs => inputs.foldl Nat.pair domain }

lemma pairCrypto_node : Function.Injective2 (treeNode pairCrypto) := by
  intro l l' r r' h
  have hpair : Nat.pair (Nat.pair 3 l) r = Nat.pair (Nat.pair 3 l') r' := h
  obtain ⟨hleft, hright⟩ := Nat.pair_eq_pair.mp hpair
  exact ⟨(Nat.pair_eq_pair.mp hleft).2, hright⟩

def pairLog : LevelTree := LevelTree.appendAll pairCrypto (.new 2) [receiptCommitment pairCrypto samplePayment, 9]

def pairHeld : HeldReceipt :=
  ⟨0, receiptCommitment pairCrypto samplePayment, samplePayment, .discovered, none, 1⟩

end Peal.Links
