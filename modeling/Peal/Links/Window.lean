import Peal.Links.ReceiptTree
import Peal.Links.Replay

namespace Peal.Links
open Peal.Fallible Peal.AppendTree Peal.Methods

/-! # The window of recent roots -/

variable (c : Crypto)

namespace LevelTree

/-- The last `window` roots as the words of the tree give them, oldest first. -/
def recentFromTree (t : LevelTree) (window : Nat) : List Fr :=
  let w := max window 1
  let start := t.size - (w - 1)
  (List.range' start (t.size + 1 - start)).map fun size => t.nodeAt c size t.depth 0

/-- Append leaf after leaf, and record each new root; a leaf that does not fit leaves both as they are. -/
def keepRecent (window : Nat) (leaves : List Fr) (kept : LevelTree × List Fr) : LevelTree × List Fr :=
  leaves.foldl (fun kept leaf => match kept.1.append c leaf with
    | .ok t => (t, pushRecent window kept.2 (t.root c))
    | .error _ => kept) kept

variable {c} {t : LevelTree} {depth window : Nat}

lemma keepRecent_concat (window : Nat) (leaves : List Fr) (leaf : Fr) (kept : LevelTree × List Fr) :
    keepRecent c window (leaves ++ [leaf]) kept = match (keepRecent c window leaves kept).1.append c leaf with
      | .ok t => (t, pushRecent window (keepRecent c window leaves kept).2 (t.root c))
      | .error _ => keepRecent c window leaves kept := by
  unfold keepRecent
  rw [List.foldl_append]
  rfl

lemma Levelled.recentFromTree (h : t.Levelled c) (hdepth : t.depth < 64) (window : Nat) :
    t.recentFromTree c window = t.recentRoots c window := by
  unfold LevelTree.recentFromTree LevelTree.recentRoots AppendTree.recentRoots
  apply List.map_congr_left
  intro size hsize
  rw [List.mem_range'_1] at hsize
  exact nodeAt_eq_storedNode h hdepth (by omega) le_rfl (by omega)

lemma UpToDate.pushRecent {t' : LevelTree} {leaf : Fr} (h : UpToDate c depth t) (happend : t.append c leaf = .ok t')
    (window : Nat) : pushRecent window (t.recentRoots c window) (t'.root c) = t'.recentRoots c window := by
  have hlevelled := h.levelled
  have hlevelled' := (h.append happend).levelled
  have hleaves := (append_leaves hlevelled happend).1
  obtain ⟨-, hnext⟩ := append_eq_ok.mp happend
  have hsize : t'.size = t.size + 1 := by
    unfold size
    rw [hleaves, List.length_append, List.length_singleton]
  have hview : t'.view = ⟨t.view.depth, t.view.leaves ++ [leaf]⟩ := by
    rw [hnext] at hleaves ⊢
    exact congrArg (ReceiptTree.mk t.depth) hleaves
  have hold : ∀ s, s ≤ t.size → t'.view.rootWhen c s = t.view.rootWhen c s := by
    rw [hview]
    exact fun s hs => ReceiptTree.rootWhen_append hs
  rw [hlevelled.recentRoots, hlevelled'.recentRoots, hlevelled'.root]
  show AppendTree.pushRecent window (AppendTree.recentRoots _ window t.size) (t'.view.rootWhen c t'.size) =
    AppendTree.recentRoots _ window t'.size
  rw [hsize]
  exact pushRecent_recentRoots hold

lemma recentRoots_new (depth window : Nat) :
    (new depth).recentRoots c window = [zeroDigest (treeNode c) 0 depth] := by
  have hleaves : (new depth).leaves = [] := (levelsOf_empty (treeNode c) 0 depth).bottom
  have hsize : (new depth).size = 0 := by
    unfold size
    rw [hleaves]
    rfl
  unfold LevelTree.recentRoots AppendTree.recentRoots
  rw [hsize, Nat.zero_sub]
  show [storedNode (treeNode c) 0 (new depth).levels 0 depth 0] = _
  cases depth <;> simp [storedNode, zeroDigest]

lemma keepRecent_spec (depth window : Nat) (leaves : List Fr) :
    UpToDate c depth (keepRecent c window leaves (new depth, [zeroDigest (treeNode c) 0 depth])).1 ∧
      (keepRecent c window leaves (new depth, [zeroDigest (treeNode c) 0 depth])).2 =
        (keepRecent c window leaves (new depth, [zeroDigest (treeNode c) 0 depth])).1.recentRoots c window := by
  induction leaves using List.reverseRecOn with
  | nil => exact ⟨upToDate_new c depth, (recentRoots_new depth window).symm⟩
  | append_singleton leaves leaf ih =>
    rw [keepRecent_concat]
    obtain ⟨htree, hrecent⟩ := ih
    split
    · rename_i t' happend
      refine ⟨htree.append happend, ?_⟩
      rw [hrecent]
      exact htree.pushRecent happend window
    · exact ⟨htree, hrecent⟩

end LevelTree

namespace OpenLedger

variable {c} {o : OpenLedger}

/-- What a proof and a signature say of an operation, whatever the ledger's state. -/
def checkOp (c : Crypto) (env : OpEnvelope) (o : OpenLedger) : Except Error Unit := do
  let proof ← admitOp c env o
  require (c.verify .op proof (Ledger.publicInput env env.com) = true) .invalidProof

/-- Opened with an instance and a configuration. -/
def Bound (inst : Instance) (cfg : LedgerConfig) (o : OpenLedger) : Prop := o.inst = inst ∧ o.cfg = cfg

variable {inst : Instance} {cfg : LedgerConfig}

lemma Bound.transition {o' : OpenLedger} {envelope : Envelope} {r : Applied} (h : Bound inst cfg o)
    (ht : o.view.transition c envelope = .ok (o'.view, r)) : Bound inst cfg o' := by
  have hlater := Ledger.later_transition ht
  exact ⟨hlater.inst.trans h.1, hlater.cfg.trans h.2⟩

lemma Bound.applyVerified {o' : OpenLedger} {env : OpEnvelope} {current : AccountView} {r : Applied}
    (h : Bound inst cfg o) (ht : o.view.applyVerified c env current = .ok (o'.view, r)) : Bound inst cfg o' := by
  unfold Ledger.applyVerified at ht
  simp only [bind_eq_ok, require_eq_ok, expect_eq_ok, pure_eq_ok, Prod.mk.injEq] at ht
  obtain ⟨-, -, -, -, -, -, -, -, m, hm, hview, -⟩ := ht
  obtain ⟨t, -, rfl⟩ := Ledger.logReceipt_ok hm
  exact ⟨(congrArg Ledger.inst hview).symm.trans h.1, (congrArg Ledger.cfg hview).symm.trans h.2⟩

lemma bound_members (hs : Sound c o) (h : Bound inst cfg o) (faults : Nat → Fault) (ks : List (Candidate × Bool))
    (slots : Slots) : Bound inst cfg (ks.foldl (memberStep c faults) (slots, o)).2 := by
  have hboth : Sound c (ks.foldl (memberStep c faults) (slots, o)).2 ∧
      Bound inst cfg (ks.foldl (memberStep c faults) (slots, o)).2 := by
    induction ks generalizing slots o with
    | nil => exact ⟨hs, h⟩
    | cons k ks ih =>
      have hstep := outcome_induct (P := fun o => Sound c o ∧ Bound inst cfg o)
        (applyMember_spec hs k.1.env k.1.current k.2 (faults k.1.slot)) ⟨hs, h⟩
        fun r o' ⟨hsound, _, now, _, _, happlied⟩ => ⟨hsound, h.applyVerified happlied⟩
      exact ih hstep.1 hstep.2 _
  exact hboth.2

variable (batchVerify : Nat → List (Nat × List Fr) → Bool)

lemma bound_perform (hs : Sound c o) (h : Bound inst cfg o) (call : Call) :
    Bound inst cfg (perform c batchVerify o call) := by
  cases call with
  | register env fault =>
    exact outcome_induct (register_simulates hs env fault).refused h
      fun _ _ hpost => h.transition (show o.view.transition c (.register env) = _ from hpost.2)
  | apply env fault =>
    exact outcome_induct (apply_simulates hs env fault).refused h
      fun _ _ hpost => h.transition (show o.view.transition c (.op env) = _ from hpost.2)
  | applyBatch coins envs faults => exact bound_members hs h faults _ _
  | mint env fault =>
    exact outcome_induct (mint_simulates hs env fault).refused h
      fun _ _ hpost => h.transition (show o.view.transition c (.mint env) = _ from hpost.2)

lemma bound_run (hs : Sound c o) (h : Bound inst cfg o) (calls : List Call) :
    Bound inst cfg (run c batchVerify o calls) := by
  induction calls generalizing o with
  | nil => exact h
  | cons call calls ih => exact ih (sound_perform batchVerify hs call) (bound_perform batchVerify hs h call)

variable (c)

/-- The window that is pushed root by root is the one that the tree is reread for, and a ledger that is opened
again answers as it did. -/
theorem recent_window (inst : Instance) (hdepth : inst.receiptDepth < 64) (cfg : LedgerConfig) :
    (∀ window leaves, let start := LevelTree.new inst.receiptDepth
      let kept := LevelTree.keepRecent c window leaves (start, start.recentFromTree c window)
      kept.2 = kept.1.recentFromTree c window) ∧
    ∀ calls, let o := run c batchVerify (fresh c inst cfg) calls
      o.recent = o.tree.recentFromTree c cfg.rootWindow ∧
      ∃ o', init c o.conn.store inst cfg = .ok o' ∧ o'.recent = o'.tree.recentFromTree c cfg.rootWindow ∧
        (∀ root, o'.rootIsRecent root = o.rootIsRecent root) ∧
        (∀ env, checkOp c env o' = checkOp c env o) ∧
        (∀ env, screen c env o' = screen c env o) ∧
        ∀ env fault, outcome (apply c env fault) o' = outcome (apply c env fault) o := by
  constructor
  · intro window leaves start kept
    obtain ⟨htree, hrecent⟩ := LevelTree.keepRecent_spec (c := c) inst.receiptDepth window leaves
    have hstart : start.recentFromTree c window = [zeroDigest (treeNode c) 0 inst.receiptDepth] := by
      rw [(LevelTree.upToDate_new c inst.receiptDepth).levelled.recentFromTree hdepth, LevelTree.recentRoots_new]
    have hkept : kept = LevelTree.keepRecent c window leaves (start, [zeroDigest (treeNode c) 0 inst.receiptDepth]) := by
      show LevelTree.keepRecent c window leaves (start, start.recentFromTree c window) = _
      rw [hstart]
    have hheight := hdepth
    rw [← htree.height] at hheight
    rw [hkept, hrecent, htree.levelled.recentFromTree hheight]
  · intro calls o
    have hsound : Sound c o := sound_run batchVerify (sound_fresh inst cfg) calls
    obtain ⟨hinst, hcfg⟩ : Bound inst cfg o := bound_run batchVerify (sound_fresh inst cfg) ⟨rfl, rfl⟩ calls
    have hheight : o.tree.depth < 64 := by
      have hlogged : o.tree.depth = o.inst.receiptDepth := hsound.stored.logged.depth
      rwa [hlogged, hinst]
    have hrecent : o.recent = o.tree.recentFromTree c cfg.rootWindow := by
      have hlogged : o.recent = Links.recentFromTree c o.tree.view o.cfg.rootWindow := hsound.stored.logged.recent
      rw [hlogged, hsound.levelled.recentFromTree hheight, hsound.levelled.recentRoots, hcfg]
    exact ⟨hrecent, o, hinst ▸ hcfg ▸ hsound.reopen, hrecent, fun _ => rfl, fun _ => rfl, fun _ => rfl, fun _ _ => rfl⟩

/-- Two registrations, a deposit and a batch, in a window of three. -/
theorem recent_window_sample :
    let o := run sampleCrypto verifyEach (fresh sampleCrypto sampleInstance raceConfig)
      (raceCalls ++ [.applyBatch 0 raceOps fun _ => none])
    o.recent = o.tree.recentFromTree sampleCrypto 3 ∧ ∃ o', init sampleCrypto o.conn.store sampleInstance raceConfig =
      .ok o' ∧ ∀ root, o'.rootIsRecent root = o.rootIsRecent root := by
  obtain ⟨hrecent, o', ho', -, hsame, -⟩ := (recent_window sampleCrypto verifyEach sampleInstance (by decide)
    raceConfig).2 (raceCalls ++ [.applyBatch 0 raceOps fun _ => none])
  exact ⟨hrecent, o', ho', hsame⟩

end OpenLedger

end Peal.Links
