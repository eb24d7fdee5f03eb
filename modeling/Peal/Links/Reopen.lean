import Peal.Links.Ledger

namespace Peal.Links
open Peal.Fallible Peal.AppendTree

/-! # A ledger is what reopening its store yields -/

variable {c : Crypto} {l l' : Ledger}

namespace ReceiptTree

lemma append_eq_ok {t t' : ReceiptTree} {leaf : Fr} :
    t.append leaf = .ok t' ↔ t.size < 2 ^ min t.depth 63 ∧ t' = ⟨t.depth, t.leaves ++ [leaf]⟩ := by
  unfold append
  simp only [bind_eq_ok, require_eq_ok, pure_eq_ok]
  constructor
  · rintro ⟨-, hlt, rfl⟩
    exact ⟨hlt, rfl⟩
  · rintro ⟨hlt, rfl⟩
    exact ⟨(), hlt, rfl⟩

lemma foldlM_append {t : ReceiptTree} {leaves : List Fr}
    (h : t.size + leaves.length ≤ 2 ^ min t.depth 63) :
    leaves.foldlM append t = .ok ⟨t.depth, t.leaves ++ leaves⟩ := by
  induction leaves generalizing t with
  | nil => rw [List.foldlM_nil, List.append_nil]; rfl
  | cons leaf leaves ih =>
    rw [List.length_cons] at h
    apply (foldlM_cons_eq_ok append).mpr
    refine ⟨⟨t.depth, t.leaves ++ [leaf]⟩, append_eq_ok.mpr ⟨by omega, rfl⟩, ?_⟩
    rw [ih (by simp only [size, List.length_append, List.length_singleton] at h ⊢; omega)]
    simp

lemma rootWhen_append {t : ReceiptTree} {leaf : Fr} {s : Nat} (h : s ≤ t.size) :
    (ReceiptTree.mk t.depth (t.leaves ++ [leaf])).rootWhen c s = t.rootWhen c s :=
  nodeAt_append h leaf t.depth 0

end ReceiptTree

/-- The receipt log's tables and its memory agree. -/
structure Logged (c : Crypto) (l : Ledger) : Prop where
  depth : l.tree.depth = l.inst.receiptDepth
  leaves : l.tree.leaves = l.store.receipts.map (·.leaf)
  bounded : l.tree.size ≤ 2 ^ min l.tree.depth 63
  recent : l.recent = recentFromTree c l.tree l.cfg.rootWindow
  roots : l.store.roots = (List.range l.tree.size).map fun i => ⟨i + 1, l.tree.rootWhen c (i + 1)⟩

/-- Everything a ledger holds in memory is in its store. -/
structure Stored (c : Crypto) (l : Ledger) : Prop where
  config : l.store.metaRows = Ledger.configRows l.cfg
  logged : Logged c l
  head : (l.seq, l.stateRoot) = Ledger.lastOp c l.store l.cfg

lemma Logged.recorded (h : Logged c l) (hne : l.tree.size ≠ 0) :
    l.store.roots.find? (fun r => r.size = l.tree.size) = some ⟨l.tree.size, l.tree.root c⟩ := by
  have hfind : (List.range l.tree.size).find? (fun i => i + 1 = l.tree.size) = some (l.tree.size - 1) := by
    rw [List.find?_range_eq_some]
    refine ⟨by simp; omega, by simp; omega, ?_⟩
    intro j hj
    simp
    omega
  have hsize : l.tree.size - 1 + 1 = l.tree.size := by omega
  rw [h.roots, List.find?_map]
  refine (congrArg _ hfind).trans ?_
  rw [Option.map_some, hsize]
  rfl

lemma Logged.checkRecorded (h : Logged c l) : Ledger.checkRecorded c l.store l.tree = .ok () := by
  unfold Ledger.checkRecorded
  by_cases hzero : l.tree.size = 0
  · rw [if_pos hzero]
  · rw [if_neg hzero]
    simp only [bind_eq_ok, expect_eq_ok, require_eq_ok]
    exact ⟨_, h.recorded hzero, rfl⟩

theorem init_stored (h : Stored c l) : Ledger.init c l.store l.inst l.cfg = .ok l := by
  have hbound := h.logged.bounded
  have htree : ReceiptTree.fromLeaves l.inst.receiptDepth (l.store.receipts.map (·.leaf)) = .ok l.tree := by
    rw [← h.logged.leaves, ← h.logged.depth]
    unfold ReceiptTree.fromLeaves
    rw [ReceiptTree.foldlM_append]
    · rfl
    · simpa [ReceiptTree.new, ReceiptTree.size] using hbound
  have hmeta : (Ledger.configRows l.cfg).foldlM bindMeta l.store.metaRows = .ok l.store.metaRows := by
    rw [h.config]
    simp [Ledger.configRows, bindMeta, List.foldlM_cons, bind, Except.bind, pure, Except.pure]
  have hseq : (Ledger.lastOp c l.store l.cfg).1 = l.seq := (congrArg Prod.fst h.head).symm
  have hroot : (Ledger.lastOp c l.store l.cfg).2 = l.stateRoot := (congrArg Prod.snd h.head).symm
  unfold Ledger.init
  simp only [bind_eq_ok, pure_eq_ok]
  refine ⟨_, hmeta, _, htree, (), h.logged.checkRecorded, ?_⟩
  rw [← h.logged.recent, hseq, hroot]

namespace Ledger

/-- The ledger that opening an empty store yields. -/
def fresh (c : Crypto) (inst : Instance) (cfg : LedgerConfig) : Ledger where
  inst := inst
  cfg := cfg
  store := { metaRows := configRows cfg }
  tree := ReceiptTree.new inst.receiptDepth
  recent := recentFromTree c (ReceiptTree.new inst.receiptDepth) cfg.rootWindow
  seq := 0
  stateRoot := genesisRoot c cfg

lemma init_empty (inst : Instance) (cfg : LedgerConfig) :
    init c {} inst cfg = .ok (fresh c inst cfg) := rfl

lemma stored_fresh (inst : Instance) (cfg : LedgerConfig) : Stored c (fresh c inst cfg) :=
  ⟨rfl, ⟨rfl, rfl, Nat.zero_le _, rfl, rfl⟩, rfl⟩

lemma logReceipt_ok {receipt : Fr} (h : l.logReceipt c receipt = .ok l') :
    ∃ t, l.tree.append receipt = .ok t ∧ l' = { l with
      store := { l.store with
        receipts := l.store.receipts ++ [⟨l.tree.size, receipt, l.seq + 1⟩]
        roots := l.store.roots ++ [⟨l.tree.size + 1, t.root c⟩] }
      tree := t
      recent := pushRecent l.cfg.rootWindow l.recent (t.root c) } := by
  unfold logReceipt at h
  simp only [bind_eq_ok, pure_eq_ok] at h
  obtain ⟨t, ht, rfl⟩ := h
  exact ⟨t, ht, rfl⟩

lemma logged_logReceipt {receipt : Fr} (hl : Logged c l) (h : l.logReceipt c receipt = .ok l') :
    Logged c l' := by
  obtain ⟨t, ht, rfl⟩ := logReceipt_ok h
  obtain ⟨hlt, rfl⟩ := ReceiptTree.append_eq_ok.mp ht
  have hold : ∀ s, s ≤ l.tree.size →
      (ReceiptTree.mk l.tree.depth (l.tree.leaves ++ [receipt])).rootWhen c s = l.tree.rootWhen c s :=
    fun s hs => ReceiptTree.rootWhen_append hs
  have hsize : (ReceiptTree.mk l.tree.depth (l.tree.leaves ++ [receipt])).size = l.tree.size + 1 := by
    simp [ReceiptTree.size]
  constructor
  · exact hl.depth
  · simp [hl.leaves]
  · rw [hsize]
    exact hlt
  · show pushRecent _ l.recent _ = recentRoots _ _ _
    rw [hl.recent, hsize, ReceiptTree.root, hsize]
    exact pushRecent_recentRoots hold
  · show l.store.roots ++ _ = List.map _ (List.range _)
    rw [hsize, List.range_succ, List.map_append, hl.roots, ReceiptTree.root, hsize]
    congr 1
    apply List.map_congr_left
    intro i hi
    rw [List.mem_range] at hi
    rw [hold (i + 1) (by omega)]

lemma stored_record {a : Fr} {envelope : Envelope} {position : Option Nat} {root : Nat}
    (hconfig : l.store.metaRows = configRows l.cfg) (hlogged : Logged c l) :
    Stored c (l.record a envelope position root) := by
  constructor
  · exact hconfig
  · exact ⟨hlogged.depth, hlogged.leaves, hlogged.bounded, hlogged.recent, hlogged.roots⟩
  · simp [record, lastOp]

lemma register_ok {env : RegisterEnvelope} {r : Applied} (h : l.register c env = .ok (l', r)) :
    ∃ a row root, env.verify c l.cfg.namespaceId = .ok a ∧ l.account a = none ∧ row.account = a ∧
      l' = (l.insertAccount row).record a (.register env) none root := by
  unfold register at h
  simp only [bind_eq_ok, require_eq_ok, pure_eq_ok, Prod.mk.injEq] at h
  obtain ⟨a, ha, -, hnone, rfl, -⟩ := h
  exact ⟨a, _, _, ha, Option.isSome_eq_false_iff.mp hnone |> Option.isNone_iff_eq_none.mp, rfl, rfl⟩

/-- What an operation needs of the state it is applied in. -/
structure Applicable (c : Crypto) (l : Ledger) (env : OpEnvelope) : Prop where
  valid : l.checkOp c env = .ok ()
  current : ∃ view, l.account env.account = some view ∧ view.com = env.com
  recent : l.rootIsRecent env.root = true
  room : l.tree.size < l.inst.maxPositions

lemma apply_ok {env : OpEnvelope} {r : Applied} (h : l.apply c env = .ok (l', r)) :
    Applicable c l env ∧ ∃ m root position, l.logReceipt c env.receipt = .ok m ∧
      l' = (m.updateAccount env.account env.comNew (l.seq + 1)).record env.account (.op env)
        (some position) root := by
  unfold apply applyVerified at h
  simp only [bind_eq_ok, require_eq_ok, expect_eq_ok, pure_eq_ok, Prod.mk.injEq] at h
  obtain ⟨proof, hproof, view, hview, -, hcom, -, hrecent, -, hverify, -, -, -, -, -, -, -, hroom, m, hm,
    rfl, -⟩ := h
  refine ⟨⟨?_, ⟨view, hview, hcom⟩, hrecent, hroom⟩, m, _, _, hm, rfl⟩
  unfold checkOp
  simp only [bind_eq_ok, require_eq_ok]
  exact ⟨proof, hproof, hcom ▸ hverify⟩

lemma mint_ok {env : MintEnvelope} {r : Applied} (h : l.mint c env = .ok (l', r)) :
    l.checkMint c env = .ok () ∧ l.credited env.depositId = false ∧
      l.tree.size < l.inst.maxPositions ∧
      ∃ m root position, l.logReceipt c env.intent.receipt = .ok m ∧
      l' = (m.insertDeposit ⟨env.depositId, env.intent.receipt, env.intent.amount, l.seq + 1⟩).record
        (mintSender c) (.mint env) (some position) root := by
  unfold mint at h
  simp only [bind_eq_ok, require_eq_ok, pure_eq_ok, Prod.mk.injEq] at h
  obtain ⟨_, hshape, -, hnew, _, hproof, -, hroom, m, hm, rfl, -⟩ := h
  refine ⟨?_, hnew, hroom, m, _, _, hm, rfl⟩
  unfold checkMint
  simp only [bind_eq_ok]
  exact ⟨(), hshape, hproof⟩

end Ledger

end Peal.Links
