import Peal.Links.Batch

namespace Peal.Links
open Peal.Fallible Peal.AppendTree Peal.Methods

/-! # Reopening and replaying a ledger -/

variable (c : Crypto)

namespace OpenLedger

variable {o o' s s' : OpenLedger}

/-- How many rows of the history one page holds. -/
def PAGE : Nat := 256

def history (o : OpenLedger) (fromSeq limit : Nat) : List OpRow :=
  (o.conn.reads.ops.filter fun row => fromSeq ≤ row.seq).take limit

def resubmit : Envelope → Method Error OpenLedger Applied
  | .register env => register c env none
  | .op env => apply c env none
  | .mint env => mint c env none

def replayRow (row : OpRow) : Method Error OpenLedger Unit := do
  let applied ← resubmit c row.envelope
  lift (require (applied.seq = row.seq) (.storage "replay sequence diverged"))

/-- Replay a page, and return where the next one starts. -/
def replayPage : List OpRow → Nat → Method Error OpenLedger Nat
  | [], fromSeq => pure fromSeq
  | row :: rows, _ => do
    replayRow c row
    replayPage rows (row.seq + 1)

/-- Page after page, until one is empty. -/
def replayPages (o : OpenLedger) : Nat → Nat → Method Error OpenLedger Unit
  | 0, _ => throw (.storage "out of fuel")
  | fuel + 1, fromSeq =>
    let page := o.history fromSeq PAGE
    if page = [] then pure ()
    else do
      let next ← replayPage c page fromSeq
      replayPages o fuel next

def verifyReplay (fuel : Nat) (o : OpenLedger) : Except Error Nat := do
  let start ← init c {} o.inst o.cfg
  let (result, replayed) := outcome (replayPages c o fuel 1) start
  result
  require (replayed.stateRoot = o.stateRoot) (.storage "replayed state root differs")
  return replayed.stateRoot

variable {c}

lemma init_empty (inst : Instance) (cfg : LedgerConfig) : init c {} inst cfg = .ok (fresh c inst cfg) := rfl

lemma Sound.ext (h : Sound c o) (h' : Sound c o') (hview : o.view = o'.view) : o = o' := by
  have htree : o.tree = o'.tree := by
    have hlog : o.tree.view = o'.tree.view := congrArg Ledger.tree hview
    have hdepth : o.tree.depth = o'.tree.depth := congrArg ReceiptTree.depth hlog
    have hleaves : o.tree.leaves = o'.tree.leaves := congrArg ReceiptTree.leaves hlog
    have hrebuilt := h.rebuilt
    rw [hdepth, hleaves, h'.rebuilt] at hrebuilt
    exact (Except.ok.inj hrebuilt).symm
  obtain ⟨⟨store, tx⟩, inst, cfg, tree, recent, seq, stateRoot⟩ := o
  obtain ⟨⟨store', tx'⟩, inst', cfg', tree', recent', seq', stateRoot'⟩ := o'
  obtain rfl : tx = none := h.idle
  obtain rfl : tx' = none := h'.idle
  obtain rfl : tree = tree' := htree
  simp only [view, Ledger.mk.injEq] at hview
  obtain ⟨rfl, rfl, rfl, -, rfl, rfl, rfl⟩ := hview
  rfl

lemma Sound.checkRecorded (h : Sound c o) : OpenLedger.checkRecorded c o.conn.store o.tree = .ok () := by
  have hrecorded := h.stored.logged.checkRecorded
  unfold Ledger.checkRecorded at hrecorded
  unfold OpenLedger.checkRecorded
  rw [h.levelled.root]
  exact hrecorded

/-- Closing a ledger and opening its store again yields the ledger. -/
theorem Sound.reopen (h : Sound c o) : init c o.conn.store o.inst o.cfg = .ok o := by
  obtain ⟨htree, hrecent⟩ := h.reload
  have hmeta : (Ledger.configRows o.cfg).foldlM bindMeta o.conn.store.metaRows = .ok o.conn.store.metaRows := by
    rw [show o.conn.store.metaRows = Ledger.configRows o.cfg from h.stored.config]
    simp [Ledger.configRows, bindMeta, List.foldlM_cons, bind, Except.bind, pure, Except.pure]
  have hseq : (Ledger.lastOp c o.conn.store o.cfg).1 = o.seq := (congrArg Prod.fst h.stored.head).symm
  have hroot : (Ledger.lastOp c o.conn.store o.cfg).2 = o.stateRoot := (congrArg Prod.snd h.stored.head).symm
  unfold init
  simp only [bind_eq_ok, pure_eq_ok]
  refine ⟨_, hmeta, _, htree, (), h.checkRecorded, ?_⟩
  rw [hrecent, hseq, hroot]
  exact h.dropTx

lemma resubmit_eq (h : Sound c s) (h' : Sound c s') {envelope : Envelope} {r : Applied}
    (ht : s.view.transition c envelope = .ok (s'.view, r)) : outcome (resubmit c envelope) s = (.ok r, s') := by
  have hsim : Simulates c s none (resubmit c envelope) (s.view.transition c envelope) := by
    cases envelope with
    | register env => exact register_simulates h env none
    | op env => exact apply_simulates h env none
    | mint env => exact mint_simulates h env none
  obtain ⟨hok, herror⟩ := meets_iff_outcome.mp hsim
  cases hres : outcome (resubmit c envelope) s with
  | mk result t =>
    cases result with
    | ok r' =>
      obtain ⟨hsound, heq⟩ := hok r' t hres
      obtain ⟨hview, rfl⟩ := Prod.mk.inj (Except.ok.inj (ht.symm.trans heq))
      rw [h'.ext hsound hview]
    | error e => exact absurd (ht.symm.trans ((herror e t hres).2 rfl)) (by simp)

lemma Ledger.transition_ops {l l' : Ledger} {envelope : Envelope} {r : Applied}
    (h : l.transition c envelope = .ok (l', r)) :
    ∃ row, l'.store.ops = l.store.ops ++ [row] ∧ row.envelope = envelope ∧ row.seq = r.seq := by
  cases envelope with
  | register env =>
    unfold Ledger.transition Ledger.register at h
    simp only [bind_eq_ok, require_eq_ok, pure_eq_ok, Prod.mk.injEq] at h
    obtain ⟨a, -, -, -, rfl, rfl⟩ := h
    exact ⟨_, rfl, rfl, rfl⟩
  | op env =>
    unfold Ledger.transition Ledger.apply Ledger.applyVerified at h
    simp only [bind_eq_ok, require_eq_ok, expect_eq_ok, pure_eq_ok, Prod.mk.injEq] at h
    obtain ⟨-, -, -, -, -, -, -, -, -, -, -, -, -, -, -, -, -, -, m, hm, rfl, rfl⟩ := h
    obtain ⟨t, -, rfl⟩ := Ledger.logReceipt_ok hm
    exact ⟨_, rfl, rfl, rfl⟩
  | mint env =>
    unfold Ledger.transition Ledger.mint at h
    simp only [bind_eq_ok, require_eq_ok, pure_eq_ok, Prod.mk.injEq] at h
    obtain ⟨-, -, -, -, -, -, -, -, m, hm, rfl, rfl⟩ := h
    obtain ⟨t, -, rfl⟩ := Ledger.logReceipt_ok hm
    exact ⟨_, rfl, rfl, rfl⟩

/-- Replaying the whole history on a fresh ledger gives this one. -/
structure Replays (c : Crypto) (inst : Instance) (cfg : LedgerConfig) (o : OpenLedger) : Prop where
  inst_eq : o.inst = inst
  cfg_eq : o.cfg = cfg
  replay : outcome (forM o.conn.store.ops (replayRow c)) (fresh c inst cfg) = (.ok (), o)

lemma replays_step {inst : Instance} {cfg : LedgerConfig} {envelope : Envelope} {r : Applied} (h : Sound c s)
    (h' : Sound c s') (ht : s.view.transition c envelope = .ok (s'.view, r)) (hs : Replays c inst cfg s) :
    Replays c inst cfg s' := by
  have hlater := Ledger.later_transition ht
  obtain ⟨row, hops, rfl, hseq⟩ := Ledger.transition_ops ht
  refine ⟨hlater.inst.trans hs.inst_eq, hlater.cfg.trans hs.cfg_eq, ?_⟩
  have hrow : outcome (replayRow c row) s = (.ok (), s') := by
    unfold replayRow
    rw [outcome_bind_ok (resubmit_eq h h' ht), outcome_lift, require_eq_ok.mpr hseq.symm]
  rw [show s'.conn.store.ops = s.conn.store.ops ++ [row] from hops, List.forM_append,
    outcome_bind_ok hs.replay, List.forM_cons, outcome_bind_ok hrow]
  rfl

lemma filter_seqs {rows : List OpRow} {start n : Nat} (h : rows.map (·.seq) = List.range' start n) (k : Nat) :
    rows.filter (fun row => start + k ≤ row.seq) = rows.drop k := by
  induction rows generalizing start n k with
  | nil => simp
  | cons row rows ih =>
    cases n with
    | zero => cases h
    | succ n =>
      rw [List.range'_succ, List.map_cons] at h
      obtain ⟨hseq, hrest⟩ := List.cons.inj h
      cases k with
      | zero =>
        have hall := ih hrest 0
        rw [List.drop_zero, List.filter_cons_of_pos (by simp [hseq])]
        rw [List.drop_zero] at hall
        congr 1
        refine (List.filter_congr fun r hr => ?_).trans hall
        have hmem : r.seq ∈ List.range' (start + 1) n := hrest ▸ List.mem_map_of_mem hr
        rw [List.mem_range'_1] at hmem
        simp only [decide_eq_decide]
        omega
      | succ k =>
        rw [List.drop_succ_cons, List.filter_cons_of_neg (by simp only [hseq, decide_eq_true_eq]; omega)]
        have := ih hrest k
        rwa [Nat.add_assoc, Nat.add_comm 1 k] at this

lemma replayPage_eq {rows : List OpRow} {start n : Nat} (h : rows.map (·.seq) = List.range' start n) :
    replayPage c rows start = forM rows (replayRow c) >>= fun _ => pure (start + rows.length) := by
  induction rows generalizing start n with
  | nil => rfl
  | cons row rows ih =>
    cases n with
    | zero => cases h
    | succ n =>
      rw [List.range'_succ, List.map_cons] at h
      obtain ⟨hseq, hrest⟩ := List.cons.inj h
      rw [replayPage, hseq, ih hrest, List.forM_cons, bind_assoc, List.length_cons, Nat.add_assoc,
        Nat.add_comm 1]

lemma replayPages_eq (h : Sound c o) {fuel k : Nat} (hfuel : o.conn.store.ops.length - k < fuel) :
    replayPages c o fuel (k + 1) = forM (o.conn.store.ops.drop k) (replayRow c) := by
  induction fuel generalizing k with
  | zero => omega
  | succ fuel ih =>
    have hpage : o.history (k + 1) PAGE = (o.conn.store.ops.drop k).take PAGE := by
      unfold history
      rw [h.reads, Nat.add_comm, filter_seqs h.seqs k]
    rw [replayPages, hpage]
    by_cases hempty : (o.conn.store.ops.drop k).take PAGE = []
    · have hdone : o.conn.store.ops.drop k = [] := by
        rcases List.take_eq_nil_iff.mp hempty with hzero | hnil
        · exact absurd hzero (by decide)
        · exact hnil
      rw [if_pos hempty, hdone]
      rfl
    · obtain ⟨n, hseqs⟩ : ∃ n, ((o.conn.store.ops.drop k).take PAGE).map (·.seq) = List.range' (k + 1) n := by
        rw [List.map_take, List.map_drop, h.seqs, List.drop_range', Nat.mul_one, Nat.add_comm]
        rcases Nat.le_total (o.seq - k) PAGE with hle | hle
        · exact ⟨_, List.take_range'_of_length_le hle⟩
        · exact ⟨_, List.take_range'_of_length_ge hle⟩
      have hsplit : (o.conn.store.ops.drop k).take PAGE ++
          o.conn.store.ops.drop (k + ((o.conn.store.ops.drop k).take PAGE).length) = o.conn.store.ops.drop k := by
        rw [← List.drop_drop, List.length_take]
        rcases Nat.le_total PAGE (o.conn.store.ops.drop k).length with hle | hle
        · rw [Nat.min_eq_left hle, List.take_append_drop]
        · rw [Nat.min_eq_right hle, List.drop_length, List.take_of_length_le hle, List.append_nil]
      have hlength : 0 < ((o.conn.store.ops.drop k).take PAGE).length := List.length_pos_iff.mpr hempty
      have hbound : ((o.conn.store.ops.drop k).take PAGE).length ≤ o.conn.store.ops.length - k := by
        rw [List.length_take, List.length_drop]
        exact Nat.min_le_right _ _
      rw [if_neg hempty, replayPage_eq hseqs, bind_assoc]
      simp only [pure_bind]
      rw [show k + 1 + ((o.conn.store.ops.drop k).take PAGE).length =
        k + ((o.conn.store.ops.drop k).take PAGE).length + 1 by omega, ih (by omega), ← List.forM_append, hsplit]

end OpenLedger

end Peal.Links
